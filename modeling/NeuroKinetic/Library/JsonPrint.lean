import NeuroKinetic.Library.OutputStream
import NeuroKinetic.Library.PaddedDecimal

/-! Printing without spaces, and the parser's answer to what is printed. -/

open OutputStream

namespace Json

/-- What a printer is given; of the digits of a number some stand after its point. -/
inductive Document where
  | string (s : List Char)
  | number (negative : Bool) (digits places : ℕ)
  | array (items : List Document)
  | object (members : List (List Char × Document))

def escapedChar (c : Char) : List Char :=
  if c = '"' ∨ c = '\\' then ['\\', c]
  else if c.toNat < 32 then
    ['\\', 'u', '0', '0', Nat.digitChar (c.toNat / 16), Nat.digitChar (c.toNat % 16)]
  else [c]

def quote (s : List Char) : List Char := '"' :: (s.flatMap escapedChar ++ ['"'])

def decimal (digits places : ℕ) : List Char :=
  if places = 0 then Nat.toDigits 10 digits
  else Nat.toDigits 10 (digits / 10 ^ places) ++
    '.' :: PaddedDecimal.digits Nat.digitChar places digits

def commaSeparated : List (List Char) → List Char
  | [] => []
  | first :: others => listText first others []

mutual

def Document.text : Document → List Char
  | .string s => quote s
  | .number negative digits places => signText negative ++ decimal digits places
  | .array items => '[' :: (commaSeparated (itemTexts items) ++ [']'])
  | .object members => '\x7b' :: (commaSeparated (memberTexts members) ++ ['\x7d'])

def itemTexts : List Document → List (List Char)
  | [] => []
  | d :: ds => d.text :: itemTexts ds

def memberTexts : List (List Char × Document) → List (List Char)
  | [] => []
  | (name, d) :: ms => (quote name ++ ':' :: d.text) :: memberTexts ms

end

mutual

/-- The value of a document. -/
def Document.value : Document → Value
  | .string s => .string (s.map Char.toNat)
  | .number negative digits places => .number negative digits (-places)
  | .array items => .array (itemValues items)
  | .object members => .object (memberValues members)

def itemValues : List Document → List Value
  | [] => []
  | d :: ds => d.value :: itemValues ds

def memberValues : List (List Char × Document) → List (List ℕ × Value)
  | [] => []
  | (name, d) :: ms => (name.map Char.toNat, d.value) :: memberValues ms

end

section Strings

theorem hexDigits_control : ∀ n < 32,
    hexDigits '0' '0' (Nat.digitChar (n / 16)) (Nat.digitChar (n % 16)) = some n := by
  decide

theorem stringBody_escape {c : Char} (other : c ≠ 'u') {unit : ℕ} (h : escape c = some unit)
    (rest : List Char) : stringBody ('\\' :: c :: rest) =
      (stringBody rest).map fun (units, rest) => (unit :: units, rest) := by
  rw [stringBody.eq_def]
  split
  next none => cases none
  next quote => exact absurd (List.cons.inj quote).1 (by decide)
  next long =>
    have second := (List.cons.inj (List.cons.inj long).2).1
    exact absurd second other
  next d later same =>
    obtain ⟨rfl, rfl⟩ := List.cons.inj (List.cons.inj same).2
    rw [h]
    cases stringBody rest <;> rfl
  next d later _ short same =>
    obtain ⟨rfl, rfl⟩ := List.cons.inj same
    exact absurd rfl (short c rest rfl)

theorem stringBody_escapedChar (c : Char) (rest : List Char) :
    stringBody (escapedChar c ++ rest) =
      (stringBody rest).map fun (units, rest) => (c.toNat :: units, rest) := by
  unfold escapedChar
  split
  next special =>
    rcases special with rfl | rfl
    · exact stringBody_escape (by decide) rfl rest
    · exact stringBody_escape (by decide) rfl rest
  next ordinary =>
    split
    next control =>
      simp only [List.cons_append, List.nil_append, stringBody, hexDigits_control _ control]
      cases stringBody rest <;> rfl
    next printable =>
      obtain ⟨notQuote, notEscape⟩ := not_or.mp ordinary
      rw [List.singleton_append, stringBody.eq_def]
      split
      next none => cases none
      next quote => exact absurd (List.cons.inj quote).1 notQuote
      next escape => exact absurd (List.cons.inj escape).1 notEscape
      next escape => exact absurd (List.cons.inj escape).1 notEscape
      next d later same =>
        obtain ⟨rfl, rfl⟩ := List.cons.inj same
        rw [if_neg (not_or.mpr ⟨notEscape, printable⟩)]

theorem string_escaped (s rest : List Char) :
    string (s.flatMap escapedChar ++ '"' :: rest) = some (s.map Char.toNat, rest) := by
  have body : stringBody (s.flatMap escapedChar ++ '"' :: rest) =
      some (s.map Char.toNat, rest) := by
    induction s with
    | nil => rfl
    | cons c s ih =>
      rw [List.flatMap_cons, List.append_assoc, stringBody_escapedChar, ih, Option.map_some,
        List.map_cons]
  simp only [string, body, Option.map_some, joinSurrogates_chars]

end Strings

section Numbers

theorem ofDigitChars_digits (width n high : ℕ) :
    Nat.ofDigitChars 10 (PaddedDecimal.digits Nat.digitChar width n) high =
      high * 10 ^ width + n % 10 ^ width := by
  induction width generalizing n with
  | zero => simp [PaddedDecimal.digits, Nat.mod_one]
  | succ width ih =>
    rw [PaddedDecimal.digits, Nat.ofDigitChars_append, ih,
      Nat.ofDigitChars_cons_digitChar_of_lt_ten (Nat.mod_lt n (by decide)), Nat.ofDigitChars_nil,
      Nat.pow_succ, Nat.mul_comm (10 ^ width) 10, Nat.mod_mul]
    ring

theorem digits_digits {width : ℕ} (n : ℕ) (positive : width ≠ 0) :
    Digits (PaddedDecimal.digits Nat.digitChar width n) := by
  refine ⟨fun none => ?_, fun c member => ?_⟩
  · have length := PaddedDecimal.length_digits Nat.digitChar width n
    rw [none] at length
    exact positive length.symm
  · obtain ⟨d, small, rfl⟩ := PaddedDecimal.mem_digits Nat.digitChar member
    rw [Nat.isDigit_digitChar, decide_eq_true small]

variable {words : List (List Char × Value)}

theorem decimal_parts (digits places : ℕ) : ∃ whole frac after,
    decimal digits places = whole ++ frac ∧ Whole whole ∧ Fraction frac after ∧
      Nat.ofDigitChars 10 (whole ++ after) 0 = digits ∧ after.length = places := by
  by_cases none : places = 0
  · refine ⟨_, [], [], ?_, whole_toDigits digits, .none, ?_, none.symm⟩
    · rw [decimal, if_pos none, List.append_nil]
    · rw [List.append_nil, Nat.ofDigitChars_ten_toDigits]
  · refine ⟨_, _, _, ?_, whole_toDigits (digits / 10 ^ places),
      .some (digits_digits digits none), ?_, PaddedDecimal.length_digits _ _ _⟩
    · rw [decimal, if_neg none]
    · rw [Nat.ofDigitChars_append, Nat.ofDigitChars_ten_toDigits, ofDigitChars_digits,
        Nat.mul_comm]
      exact Nat.div_add_mod digits _

theorem decimal_reads (dialect : Dialect words) (negative : Bool) (digits places fuel : ℕ) :
    Reads (value words (fuel + 1)) (signText negative ++ decimal digits places)
      (.number negative digits (-places)) := by
  obtain ⟨whole, frac, after, text, isWhole, isFraction, all, length⟩ :=
    decimal_parts digits places
  have reads : Reads (value words (fuel + 1)) (signText negative ++ (whole ++ (frac ++ [])))
      (.number negative _ (0 - after.length)) :=
    value_number dialect negative isWhole isFraction .none
  rw [List.append_nil, ← text, all, length, zero_sub] at reads
  exact reads

end Numbers

section Lists

variable {α : Type} {item : List Char → Option (α × List Char)} {close : Char}

theorem commaList_forall₂ (closes : close = ']' ∨ close = '\x7d') {others : List (List Char)}
    {xs : List α} : ∀ {first : List Char} {x : α} {n : ℕ},
      List.Forall₂ (Reads item) (first :: others) (x :: xs) → others.length < n → ∀ rest,
        commaList item close n (listText first others [] ++ close :: rest) =
          some (x :: xs, rest) := by
  have blank : Spaces [] := fun c member => absurd member List.not_mem_nil
  induction others generalizing xs with
  | nil =>
    intro first x n all room rest
    obtain ⟨n, rfl⟩ : ∃ k, n = k + 1 := ⟨n - 1, by omega⟩
    obtain ⟨reads, none⟩ := List.forall₂_cons.mp all
    cases none
    rw [listText, List.flatMap_nil, List.nil_append, List.append_assoc]
    exact commaList_last closes blank reads n rest
  | cons second others ih =>
    intro first x n all room rest
    obtain ⟨n, rfl⟩ : ∃ k, n = k + 1 := ⟨n - 1, by omega⟩
    obtain ⟨reads, later⟩ := List.forall₂_cons.mp all
    cases later with
    | cons next later =>
      have shorter : others.length < n := by
        rw [List.length_cons] at room
        omega
      have tail := ih (.cons next later) shorter rest
      simp only [listText, List.append_assoc] at tail
      simp only [listText, List.flatMap_cons, List.cons_append, List.append_assoc]
      rw [commaList_step reads, tail, Option.map_some]

end Lists

section Documents

variable {words : List (List Char × Value)}

/-- A document begins with a character that neither is space nor closes a list. -/
theorem Document.text_head (d : Document) :
    ∃ c cs, d.text = c :: cs ∧ ¬isSpace c ∧ c ≠ ']' := by
  cases d with
  | string s => exact ⟨'"', _, Document.text.eq_1 s, by decide, by decide⟩
  | number negative digits places =>
    obtain ⟨whole, frac, after, text, isWhole, _⟩ := decimal_parts digits places
    obtain ⟨c, cs, first, visible⟩ := starts_number negative isWhole frac
    refine ⟨c, cs, ?_, visible, ?_⟩
    · rw [Document.text, text, first]
    · cases negative with
      | true =>
        cases first
        decide
      | false =>
        obtain ⟨d, ds, rfl⟩ := List.exists_cons_of_ne_nil isWhole.run.1
        have same : d = c := (List.cons.inj first).1
        rw [← same]
        exact digit_ne (isWhole.run.2 d List.mem_cons_self) (by decide)
  | array items => exact ⟨'[', _, Document.text.eq_3 items, by decide, by decide⟩
  | object members => exact ⟨'\x7b', _, Document.text.eq_4 members, by decide, by decide⟩

theorem Document.starts (d : Document) : Starts d.text := by
  obtain ⟨c, cs, text, visible, _⟩ := d.text_head
  exact ⟨c, cs, text, visible⟩

theorem member_document {p : List Char → Option (Value × List Char)} (name : List Char)
    {d : Document} (reads : Reads p d.text d.value) :
    Reads (member p) (quote name ++ ':' :: d.text) (name.map Char.toNat, d.value) := by
  intro rest stops
  simp only [quote, List.cons_append, List.append_assoc, List.nil_append, member,
    skipSpace_cons (c := '"') (by decide), string_escaped, skipSpace_cons (c := ':') (by decide),
    skipSpace_starts d.starts, reads rest stops, Option.map_some]

theorem length_itemTexts (items : List Document) : (itemTexts items).length = items.length := by
  induction items with
  | nil => rfl
  | cons d ds ih => rw [itemTexts, List.length_cons, ih, List.length_cons]

theorem length_memberTexts (members : List (List Char × Document)) :
    (memberTexts members).length = members.length := by
  induction members with
  | nil => rfl
  | cons m ms ih => rw [memberTexts, List.length_cons, ih, List.length_cons]

theorem array_document {items : List Document} {fuel : ℕ}
    (reads : List.Forall₂ (Reads (element (value words fuel))) (itemTexts items)
      (itemValues items)) (room : items.length ≤ fuel) :
    Reads (value words (fuel + 1)) (Document.array items).text (Document.array items).value := by
  intro rest _
  cases items with
  | nil => rfl
  | cons d ds =>
    have length : (itemTexts ds).length < fuel := by
      rw [length_itemTexts]
      exact room
    have opens : Opens ']' d.text := by
      obtain ⟨c, cs, text, visible, other⟩ := d.text_head
      exact ⟨[], c, cs, text, fun c member => absurd member List.not_mem_nil, visible, other⟩
    rw [Document.text, Document.value, itemTexts, itemValues, commaSeparated, List.cons_append,
      List.append_assoc, value_array opens, List.singleton_append,
      commaList_forall₂ (Or.inl rfl) reads length, Option.map_some]

theorem object_document {members : List (List Char × Document)} {fuel : ℕ}
    (reads : List.Forall₂ (Reads (member (value words fuel))) (memberTexts members)
      (memberValues members)) (room : members.length ≤ fuel) :
    Reads (value words (fuel + 1)) (Document.object members).text
      (Document.object members).value := by
  intro rest _
  cases members with
  | nil => rfl
  | cons m ms =>
    have length : (memberTexts ms).length < fuel := by
      rw [length_memberTexts]
      exact room
    have opens : Opens '\x7d' (quote m.1 ++ ':' :: m.2.text) :=
      ⟨[], '"', _, rfl, fun c member => absurd member List.not_mem_nil, by decide, by decide⟩
    rw [Document.text, Document.value, memberTexts, memberValues, commaSeparated, List.cons_append,
      List.append_assoc, value_object opens, List.singleton_append,
      commaList_forall₂ (Or.inr rfl) reads length, Option.map_some]

mutual

/-- What is printed is read back, given room. -/
theorem Document.reads (dialect : Dialect words) : ∀ d : Document, ∃ room, ∀ fuel, room ≤ fuel →
    Reads (value words (fuel + 1)) d.text d.value
  | .string s => ⟨0, fun fuel _ rest _ => by
      rw [Document.text, Document.value, quote, List.cons_append, List.append_assoc, value,
        if_pos rfl, List.singleton_append, string_escaped, Option.map_some]⟩
  | .number negative digits places => ⟨0, fun fuel _ =>
      decimal_reads dialect negative digits places fuel⟩
  | .array items => by
      obtain ⟨room, all⟩ := itemTexts_read dialect items
      refine ⟨room + items.length + 1, fun fuel enough => array_document ?_ (by omega)⟩
      obtain ⟨fuel, rfl⟩ : ∃ k, fuel = k + 1 := ⟨fuel - 1, by omega⟩
      exact all fuel (by omega)
  | .object members => by
      obtain ⟨room, all⟩ := memberTexts_read dialect members
      refine ⟨room + members.length + 1, fun fuel enough => object_document ?_ (by omega)⟩
      obtain ⟨fuel, rfl⟩ : ∃ k, fuel = k + 1 := ⟨fuel - 1, by omega⟩
      exact all fuel (by omega)

theorem itemTexts_read (dialect : Dialect words) : ∀ items : List Document, ∃ room, ∀ fuel,
    room ≤ fuel → List.Forall₂ (Reads (element (value words (fuel + 1)))) (itemTexts items)
      (itemValues items)
  | [] => ⟨0, fun _ _ => .nil⟩
  | d :: ds => by
      obtain ⟨first, reads⟩ := d.reads dialect
      obtain ⟨later, all⟩ := itemTexts_read dialect ds
      refine ⟨max first later, fun fuel enough => .cons ?_ (all fuel (by omega))⟩
      have blank : Spaces [] := fun c member => absurd member List.not_mem_nil
      exact element_reads blank d.starts (reads fuel (by omega))

theorem memberTexts_read (dialect : Dialect words) : ∀ members : List (List Char × Document),
    ∃ room, ∀ fuel, room ≤ fuel → List.Forall₂ (Reads (member (value words (fuel + 1))))
      (memberTexts members) (memberValues members)
  | [] => ⟨0, fun _ _ => .nil⟩
  | (name, d) :: ms => by
      obtain ⟨first, reads⟩ := d.reads dialect
      obtain ⟨later, all⟩ := memberTexts_read dialect ms
      refine ⟨max first later, fun fuel enough => .cons ?_ (all fuel (by omega))⟩
      exact member_document name (reads fuel (by omega))

end

/-- Printing and parsing: a printed document is its value, for either parser. -/
theorem Document.parses (dialect : Dialect words) (d : Document) :
    Parses words d.text d.value := by
  obtain ⟨room, reads⟩ := d.reads dialect
  have whole := reads room le_rfl [] (fun c head => by cases head)
  have first := skipSpace_starts d.starts []
  rw [List.append_nil] at whole first
  refine ⟨room + 1, ?_⟩
  rw [parseWith, first, whole]
  rfl

end Documents

end Json
