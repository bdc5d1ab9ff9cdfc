import Mathlib.Algebra.GroupWithZero.Nat
import NeuroKinetic.Library.Json

/-! How many characters of a text the parser takes for what it reads. -/

namespace Json

section Sizes

/-- A control character, a quote or a backslash. -/
def NeedsEscape (u : ℕ) : Prop := u < 32 ∨ u = 34 ∨ u = 92

instance decidableNeedsEscape (u : ℕ) : Decidable (NeedsEscape u) :=
  inferInstanceAs (Decidable (_ ∨ _))

/-- The least that a string's characters take; an escape takes two at least. -/
def textSize (units : List ℕ) : ℕ := (units.map fun u => if NeedsEscape u then 2 else 1).sum

/-- Only strings are counted. -/
def Value.size : Value → ℕ
  | .string units => textSize units + 2
  | _ => 0

def memberSize (m : List ℕ × Value) : ℕ := textSize m.1 + 3 + m.2.size

/-- What is read takes no less of the text than its size. -/
def Takes {α : Type} (read : List Char → Option (α × List Char)) (size : α → ℕ) : Prop :=
  ∀ cs x rest, read cs = some (x, rest) → size x + rest.length ≤ cs.length

theorem textSize_cons_le (u : ℕ) (units : List ℕ) : textSize (u :: units) ≤ 2 + textSize units := by
  rw [textSize, List.map_cons, List.sum_cons]
  split <;> simp [textSize]

theorem textSize_cons_of_not {u : ℕ} (h : ¬NeedsEscape u) (units : List ℕ) :
    textSize (u :: units) = 1 + textSize units := by
  rw [textSize, List.map_cons, List.sum_cons, if_neg h, textSize]

theorem length_le_textSize (units : List ℕ) : units.length ≤ textSize units := by
  induction units with
  | nil => exact Nat.le_refl 0
  | cons u units ih =>
    rw [textSize, List.map_cons, List.sum_cons, List.length_cons]
    rw [textSize] at ih
    split <;> omega

/-- A string as short as its characters has none that needs an escape. -/
theorem plain_of_textSize_le {units : List ℕ} (h : textSize units ≤ units.length) :
    ∀ u ∈ units, ¬NeedsEscape u := by
  induction units with
  | nil => simp
  | cons u units ih =>
    have least := length_le_textSize units
    rw [textSize, List.map_cons, List.sum_cons, List.length_cons] at h
    rw [textSize] at least ih
    intro w member
    rcases List.mem_cons.mp member with rfl | later
    · intro escape
      rw [if_pos escape] at h
      omega
    · refine ih ?_ w later
      split at h <;> omega

end Sizes

section Pieces

theorem skipSpace_length (cs : List Char) : (skipSpace cs).length ≤ cs.length :=
  (List.dropWhile_sublist _).length_le

theorem stringBody_takes {cs rest : List Char} {units : List ℕ}
    (h : stringBody cs = some (units, rest)) : textSize units + 1 + rest.length ≤ cs.length := by
  fun_induction stringBody cs generalizing units rest with
  | case1 => cases h
  | case2 after =>
    cases h
    show 0 + 1 + after.length ≤ after.length + 1
    omega
  | case3 a b c d after unit others rest' found digits ih =>
    cases h
    have tail := ih found
    have head := textSize_cons_le unit others
    simp only [List.length_cons]
    omega
  | case4 => cases h
  | case5 e after notUnicode unit others rest' found digits ih =>
    cases h
    have tail := ih found
    have head := textSize_cons_le unit others
    simp only [List.length_cons]
    omega
  | case6 => cases h
  | case7 => cases h
  | case8 c after notQuote _ _ stands ih =>
    obtain ⟨⟨others, rest'⟩, found, same⟩ := Option.map_eq_some_iff.mp h
    cases same
    have tail := ih found
    have single : ¬NeedsEscape c.toNat := by
      rintro (control | quote | backslash)
      · exact stands (Or.inr control)
      · exact notQuote (Char.ext (UInt32.toNat.inj quote))
      · exact stands (Or.inl (Char.ext (UInt32.toNat.inj backslash)))
    rw [textSize_cons_of_not single, List.length_cons]
    omega

/-- A pair of surrogates becomes one character beyond those that need escapes. -/
theorem textSize_joinSurrogates (units : List ℕ) :
    textSize (joinSurrogates units) ≤ textSize units := by
  fun_induction joinSurrogates units with
  | case1 high low rest pair ih =>
    have beyond : ¬NeedsEscape (0x10000 + (high - 0xD800) * 0x400 + (low - 0xDC00)) := by
      unfold NeedsEscape
      omega
    rw [textSize_cons_of_not beyond]
    simp only [textSize, List.map_cons, List.sum_cons] at ih ⊢
    split <;> omega
  | case2 high low rest single ih =>
    simp only [textSize, List.map_cons, List.sum_cons] at ih ⊢
    omega
  | case3 units short => exact Nat.le_refl _

theorem string_takes {cs rest : List Char} {units : List ℕ} (h : string cs = some (units, rest)) :
    textSize units + 1 + rest.length ≤ cs.length := by
  obtain ⟨⟨raw, rest'⟩, found, same⟩ := Option.map_eq_some_iff.mp h
  cases same
  have joined := textSize_joinSurrogates raw
  have taken := stringBody_takes found
  omega

theorem dropWhile_length (p : Char → Bool) (cs : List Char) :
    (cs.dropWhile p).length ≤ cs.length :=
  (List.dropWhile_sublist p).length_le

theorem fraction_takes {cs : List Char} {x : List Char × List Char} (h : fraction cs = some x) :
    x.2.length ≤ cs.length := by
  unfold fraction at h
  split at h
  next after =>
    simp only at h
    split at h
    next => cases h
    next =>
      cases h
      exact (dropWhile_length _ after).trans (Nat.le_succ _)
  next =>
    cases h
    exact Nat.le_refl _

theorem exponentDigits_takes {negative : Bool} {cs : List Char} {x : ℤ × List Char}
    (h : exponentDigits negative cs = some x) : x.2.length ≤ cs.length := by
  simp only [exponentDigits] at h
  split at h
  next => cases h
  next =>
    cases h
    exact dropWhile_length _ cs

theorem exponent_takes {cs : List Char} {x : ℤ × List Char} (h : exponent cs = some x) :
    x.2.length ≤ cs.length := by
  unfold exponent at h
  split at h
  next =>
    cases h
    exact Nat.le_refl _
  next c after =>
    split at h
    next =>
      split at h
      next signed =>
        have taken := exponentDigits_takes h
        simp only [List.length_cons]
        omega
      next signed =>
        have taken := exponentDigits_takes h
        simp only [List.length_cons]
        omega
      next => exact (exponentDigits_takes h).trans (Nat.le_succ _)
    next =>
      cases h
      exact Nat.le_refl _

theorem unsignedNumber_takes (negative : Bool) : Takes (unsignedNumber negative) Value.size := by
  intro cs v rest h
  simp only [unsignedNumber] at h
  split at h
  next => cases h
  next =>
    split at h
    next => cases h
    next digits afterFraction fractionRead =>
      split at h
      next => cases h
      next e afterExponent exponentRead =>
        cases h
        have whole := dropWhile_length Char.isDigit cs
        have frac := fraction_takes fractionRead
        have exp := exponent_takes exponentRead
        simp only [Value.size] at *
        omega

theorem number_takes : Takes number Value.size := by
  intro cs v rest h
  unfold number at h
  split at h
  next after =>
    have taken := unsignedNumber_takes true after v rest h
    rw [List.length_cons]
    omega
  next => exact unsignedNumber_takes false cs v rest h

end Pieces

section Containers

/-- A list is as large as its items, each with the character after it. -/
def listSize {α : Type} (size : α → ℕ) (xs : List α) : ℕ := (xs.map fun x => size x + 1).sum

theorem le_listSize {α : Type} (size : α → ℕ) {x : α} {xs : List α} (member : x ∈ xs) :
    size x + 1 ≤ listSize size xs := by
  induction xs with
  | nil => cases member
  | cons z xs ih =>
    have split : listSize size (z :: xs) = (size z + 1) + listSize size xs := rfl
    rcases List.mem_cons.mp member with rfl | later
    · omega
    · have := ih later
      omega

/-- Two items of a list take their places in it. -/
theorem add_le_listSize {α : Type} (size : α → ℕ) {x y : α} {xs : List α} (hx : x ∈ xs)
    (hy : y ∈ xs) (apart : x ≠ y) : (size x + 1) + (size y + 1) ≤ listSize size xs := by
  induction xs with
  | nil => cases hx
  | cons z xs ih =>
    have split : listSize size (z :: xs) = (size z + 1) + listSize size xs := rfl
    rcases List.mem_cons.mp hx with rfl | first
    · have later := (List.mem_cons.mp hy).resolve_left (Ne.symm apart)
      have := le_listSize size later
      omega
    · rcases List.mem_cons.mp hy with rfl | second
      · have := le_listSize size first
        omega
      · have := ih first second
        omega

theorem commaList_takes {α : Type} {item : List Char → Option (α × List Char)} {size : α → ℕ}
    (h : Takes item size) (close : Char) (n : ℕ) :
    Takes (commaList item close n) (listSize size) := by
  induction n with
  | zero =>
    intro cs xs rest read
    cases read
  | succ n ih =>
    intro cs xs rest read
    rw [commaList] at read
    split at read
    next => cases read
    next x afterItem found =>
      have first := h cs x afterItem found
      have skipped := skipSpace_length afterItem
      split at read
      next => cases read
      next c after separator =>
        rw [separator, List.length_cons] at skipped
        split at read
        next =>
          obtain ⟨⟨others, rest'⟩, found, same⟩ := Option.map_eq_some_iff.mp read
          cases same
          have later := ih after others _ found
          simp only [listSize, List.map_cons, List.sum_cons] at later ⊢
          omega
        next =>
          split at read
          next =>
            cases read
            simp only [listSize, List.map_cons, List.map_nil, List.sum_cons, List.sum_nil]
            omega
          next => cases read

theorem element_takes {p : List Char → Option (Value × List Char)} (h : Takes p Value.size) :
    Takes (element p) Value.size := by
  intro cs v rest read
  exact (h (skipSpace cs) v rest read).trans (skipSpace_length cs)

theorem member_takes {p : List Char → Option (Value × List Char)} (h : Takes p Value.size) :
    Takes (member p) memberSize := by
  intro cs m rest read
  have start := skipSpace_length cs
  rw [member] at read
  split at read
  next afterQuote opened =>
    rw [opened, List.length_cons] at start
    split at read
    next => cases read
    next key afterKey found =>
      have name := string_takes found
      have gap := skipSpace_length afterKey
      split at read
      next afterColon colon =>
        rw [colon, List.length_cons] at gap
        obtain ⟨⟨v, rest'⟩, found, same⟩ := Option.map_eq_some_iff.mp read
        cases same
        have body := h _ v _ found
        have space := skipSpace_length afterColon
        simp only [memberSize]
        omega
      next => cases read
  next => cases read

theorem literal_takes {words : List (List Char × Value)} (h : ∀ word ∈ words, word.2.size = 0) :
    Takes (literal words) Value.size := by
  intro cs v rest read
  obtain ⟨word, found, same⟩ := Option.map_eq_some_iff.mp read
  cases same
  rw [h word (List.mem_of_find?_eq_some found), Nat.zero_add, List.length_drop]
  exact Nat.sub_le _ _

/-- At every depth the parser takes the size of what it reads. -/
theorem value_takes {words : List (List Char × Value)} (h : ∀ word ∈ words, word.2.size = 0)
    (fuel : ℕ) : Takes (value words fuel) Value.size := by
  induction fuel with
  | zero =>
    intro cs v rest read
    cases read
  | succ fuel ih =>
    intro cs v rest read
    cases cs with
    | nil => cases read
    | cons c cs =>
      have space := skipSpace_length cs
      rw [value] at read
      rw [List.length_cons]
      split at read
      next quote =>
        obtain ⟨⟨units, rest'⟩, found, same⟩ := Option.map_eq_some_iff.mp read
        cases same
        have taken := string_takes found
        simp only [Value.size]
        omega
      next =>
        split at read
        next bracket =>
          split at read
          next after closed =>
            cases read
            rw [closed, List.length_cons] at space
            simp only [Value.size]
            omega
          next =>
            obtain ⟨⟨items, rest'⟩, found, same⟩ := Option.map_eq_some_iff.mp read
            cases same
            have taken := commaList_takes (element_takes ih) ']' fuel _ _ _ found
            simp only [Value.size]
            omega
        next =>
          split at read
          next brace =>
            split at read
            next after closed =>
              cases read
              rw [closed, List.length_cons] at space
              simp only [Value.size]
              omega
            next =>
              obtain ⟨⟨members, rest'⟩, found, same⟩ := Option.map_eq_some_iff.mp read
              cases same
              have taken := commaList_takes (member_takes ih) '\x7d' fuel _ _ _ found
              simp only [Value.size]
              omega
          next =>
            rcases Option.or_eq_some_iff.mp read with word | ⟨_, found⟩
            · exact literal_takes h _ v rest word
            · exact number_takes _ v rest found

end Containers

end Json
