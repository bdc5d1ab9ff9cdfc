import NeuroKinetic.Library.Json

/-! Pieces of JSON text, as a printer puts them together, and what the parser makes
of them. -/

namespace Json

section Reading

/-- What may follow a number without becoming part of it. -/
def Stops (rest : List Char) : Prop :=
  ∀ c, rest.head? = some c → ¬c.isDigit ∧ c ≠ '.' ∧ c ≠ 'e' ∧ c ≠ 'E'

/-- A piece of text is read as some result, and no further. -/
def Reads {α : Type} (read : List Char → Option (α × List Char)) (text : List Char) (x : α) :
    Prop :=
  ∀ rest, Stops rest → read (text ++ rest) = some (x, rest)

/-- Nothing is read from a piece of text, whatever follows it. -/
def Rejects {α : Type} (read : List Char → Option (α × List Char)) (text : List Char) : Prop :=
  ∀ rest, read (text ++ rest) = none

theorem stops_cons {c : Char} (rest : List Char)
    (h : ¬c.isDigit ∧ c ≠ '.' ∧ c ≠ 'e' ∧ c ≠ 'E') : Stops (c :: rest) := by
  intro d head
  cases head
  exact h

theorem skipSpace_append {spaces : List Char} (h : ∀ c ∈ spaces, isSpace c) (cs : List Char) :
    skipSpace (spaces ++ cs) = skipSpace cs :=
  List.dropWhile_append_of_pos h

theorem skipSpace_cons {c : Char} (h : ¬isSpace c) (cs : List Char) :
    skipSpace (c :: cs) = c :: cs :=
  List.dropWhile_cons_of_neg h

end Reading

section NumberTexts

variable {digits rest : List Char}

/-- A run of digits ends where something else begins. -/
theorem takeWhile_digits (all : ∀ c ∈ digits, c.isDigit)
    (ends : ∀ c, rest.head? = some c → ¬c.isDigit) :
    (digits ++ rest).takeWhile Char.isDigit = digits ∧
      (digits ++ rest).dropWhile Char.isDigit = rest := by
  have none : rest.takeWhile Char.isDigit = [] ∧ rest.dropWhile Char.isDigit = rest := by
    cases rest with
    | nil => exact ⟨rfl, rfl⟩
    | cons c rest =>
      have stop := ends c rfl
      exact ⟨List.takeWhile_cons_of_neg stop, List.dropWhile_cons_of_neg stop⟩
  rw [List.takeWhile_append_of_pos all, List.dropWhile_append_of_pos all, none.1, none.2,
    List.append_nil]
  exact ⟨rfl, rfl⟩

def Digits (digits : List Char) : Prop := digits ≠ [] ∧ ∀ c ∈ digits, c.isDigit

/-- A whole part: digits, without a zero in front of others. -/
structure Whole (digits : List Char) : Prop where
  run : Digits digits
  canonical : digits.head? = some '0' → digits = ['0']

/-- A fraction and its digits. -/
inductive Fraction : List Char → List Char → Prop
  | none : Fraction [] []
  | some {digits : List Char} (run : Digits digits) : Fraction ('.' :: digits) digits

/-- An exponent and its value. -/
inductive Exponent : List Char → ℤ → Prop
  | none : Exponent [] 0
  | negative {digits : List Char} (run : Digits digits) :
      Exponent ('e' :: '-' :: digits) (-(Nat.ofDigitChars 10 digits 0 : ℤ))
  | positive {digits : List Char} (run : Digits digits) :
      Exponent ('e' :: '+' :: digits) (Nat.ofDigitChars 10 digits 0)

theorem fraction_reads {text : List Char} (h : Fraction text digits)
    (ends : ∀ c, rest.head? = some c → ¬c.isDigit ∧ c ≠ '.') :
    fraction (text ++ rest) = some (digits, rest) := by
  cases h with
  | none =>
    rw [List.nil_append]
    unfold fraction
    split
    next cs => exact absurd rfl (ends '.' rfl).2
    next => rfl
  | some run =>
    obtain ⟨taken, dropped⟩ := takeWhile_digits run.2 fun c head => (ends c head).1
    simp only [List.cons_append, fraction, taken, dropped, if_neg run.1]

theorem exponent_reads {text : List Char} {e : ℤ} (h : Exponent text e) (stops : Stops rest) :
    exponent (text ++ rest) = some (e, rest) := by
  cases h with
  | none =>
    rw [List.nil_append]
    cases rest with
    | nil => rfl
    | cons c rest =>
      obtain ⟨_, _, notLower, notUpper⟩ := stops c rfl
      simp only [exponent, notLower, notUpper, or_self, if_false]
  | negative run =>
    obtain ⟨taken, dropped⟩ := takeWhile_digits run.2 fun c head => (stops c head).1
    simp only [List.cons_append, exponent, true_or, if_true, exponentDigits, taken, dropped,
      if_neg run.1]
  | positive run =>
    obtain ⟨taken, dropped⟩ := takeWhile_digits run.2 fun c head => (stops c head).1
    simp only [List.cons_append, exponent, true_or, if_true, exponentDigits, taken, dropped,
      if_neg run.1, Bool.false_eq_true, if_false]

theorem unsignedNumber_reads {whole frac exp : List Char} {e : ℤ} (negative : Bool)
    (w : Whole whole) (f : Fraction frac digits) (x : Exponent exp e) :
    Reads (unsignedNumber negative) (whole ++ (frac ++ exp))
      (.number negative (Nat.ofDigitChars 10 (whole ++ digits) 0) (e - digits.length)) := by
  intro rest stops
  have afterFraction : ∀ c, (exp ++ rest).head? = some c → ¬c.isDigit ∧ c ≠ '.' := by
    intro c head
    cases x with
    | none => exact ⟨(stops c head).1, (stops c head).2.1⟩
    | negative run =>
      cases head
      decide
    | positive run =>
      cases head
      decide
  have afterWhole : ∀ c, (frac ++ (exp ++ rest)).head? = some c → ¬c.isDigit := by
    intro c head
    cases f with
    | none => exact (afterFraction c head).1
    | some run =>
      cases head
      decide
  obtain ⟨taken, dropped⟩ := takeWhile_digits w.run.2 afterWhole
  have proper : ¬(whole = [] ∨ (whole.head? = some '0' ∧ whole ≠ ['0'])) := by
    rintro (none | ⟨zero, more⟩)
    · exact w.run.1 none
    · exact more (w.canonical zero)
  simp only [List.append_assoc, unsignedNumber, taken, dropped, if_neg proper,
    fraction_reads f afterFraction, exponent_reads x stops]

end NumberTexts

section StringTexts

/-- Characters that stand for themselves in a string. -/
def Plain (s : List Char) : Prop := ∀ c ∈ s, c ≠ '"' ∧ c ≠ '\\' ∧ 32 ≤ c.toNat

instance decidablePlain (s : List Char) : Decidable (Plain s) :=
  List.decidableBAll _ s

theorem stringBody_plain {s : List Char} (h : Plain s) (rest : List Char) :
    stringBody (s ++ '"' :: rest) = some (s.map Char.toNat, rest) := by
  induction s with
  | nil => rfl
  | cons c s ih =>
    obtain ⟨notQuote, notEscape, printable⟩ := h c List.mem_cons_self
    have tail := ih fun d member => h d (List.mem_cons_of_mem c member)
    rw [List.cons_append, stringBody.eq_def]
    split
    next none => cases none
    next quote => exact absurd (List.cons.inj quote).1 notQuote
    next escape => exact absurd (List.cons.inj escape).1 notEscape
    next escape => exact absurd (List.cons.inj escape).1 notEscape
    next d later same =>
      obtain ⟨rfl, rfl⟩ := List.cons.inj same
      have stands : ¬(c = '\\' ∨ c.toNat < 32) := by
        rintro (escape | control)
        · exact notEscape escape
        · omega
      rw [if_neg stands, tail, Option.map_some, List.map_cons]

theorem joinSurrogates_chars (s : List Char) :
    joinSurrogates (s.map Char.toNat) = s.map Char.toNat := by
  induction s with
  | nil => rfl
  | cons c s ih =>
    cases s with
    | nil => rfl
    | cons d s =>
      have single : ¬(0xD800 ≤ c.toNat ∧ c.toNat < 0xDC00 ∧ 0xDC00 ≤ d.toNat ∧
          d.toNat < 0xE000) := by
        have valid : c.toNat < 0xD800 ∨ (0xDFFF < c.toNat ∧ c.toNat < 0x110000) := c.valid
        omega
      rw [List.map_cons, List.map_cons, joinSurrogates, if_neg single, ← List.map_cons, ih,
        List.map_cons]

theorem string_plain {s : List Char} (h : Plain s) (rest : List Char) :
    string (s ++ '"' :: rest) = some (s.map Char.toNat, rest) := by
  simp only [string, stringBody_plain h, Option.map_some, joinSurrogates_chars]

end StringTexts

section ValueTexts

variable {words : List (List Char × Value)} {fuel : ℕ}

/-- The words of either parser. -/
def Dialect (words : List (List Char × Value)) : Prop :=
  words = standardWords ∨ words = pythonWords

theorem value_string {s : List Char} (h : Plain s) :
    Reads (value words (fuel + 1)) ('"' :: (s ++ ['"'])) (.string (s.map Char.toNat)) := by
  intro rest _
  rw [List.cons_append, List.append_assoc, value, if_pos rfl, List.singleton_append,
    string_plain h, Option.map_some]

theorem digit_ne {c d : Char} (digit : c.isDigit) (other : ¬d.isDigit) : c ≠ d := by
  rintro rfl
  exact other digit

theorem literal_digit (h : Dialect words) {c : Char} (digit : c.isDigit) (cs : List Char) :
    literal words (c :: cs) = none := by
  have null := digit_ne (d := 'n') digit (by decide)
  have true := digit_ne (d := 't') digit (by decide)
  have false := digit_ne (d := 'f') digit (by decide)
  have nan := digit_ne (d := 'N') digit (by decide)
  have infinity := digit_ne (d := 'I') digit (by decide)
  have minus := digit_ne (d := '-') digit (by decide)
  rcases h with rfl | rfl
  · simp [literal, standardWords, List.isPrefixOf, null.symm, true.symm, false.symm]
  · simp [literal, standardWords, pythonWords, List.isPrefixOf, null.symm, true.symm, false.symm,
      nan.symm, infinity.symm, minus.symm]

theorem literal_negative (h : Dialect words) {c : Char} (digit : c.isDigit) (cs : List Char) :
    literal words ('-' :: c :: cs) = none := by
  have infinity := digit_ne (d := 'I') digit (by decide)
  rcases h with rfl | rfl
  · simp [literal, standardWords, List.isPrefixOf]
  · simp [literal, standardWords, pythonWords, List.isPrefixOf, infinity.symm]

/-- The sign of a number in front of it. -/
def signText (negative : Bool) : List Char := if negative then ['-'] else []

theorem value_number (h : Dialect words) {whole frac digits exp : List Char} {e : ℤ}
    (negative : Bool) (w : Whole whole) (f : Fraction frac digits) (x : Exponent exp e) :
    Reads (value words (fuel + 1)) (signText negative ++ (whole ++ (frac ++ exp)))
      (.number negative (Nat.ofDigitChars 10 (whole ++ digits) 0) (e - digits.length)) := by
  intro rest stops
  have reads := unsignedNumber_reads negative w f x rest stops
  obtain ⟨c, ws, rfl⟩ := List.exists_cons_of_ne_nil w.run.1
  have digit : c.isDigit := w.run.2 c List.mem_cons_self
  cases negative with
  | false =>
    have quote := digit_ne (d := '"') digit (by decide)
    have bracket := digit_ne (d := '[') digit (by decide)
    have brace := digit_ne (d := '{') digit (by decide)
    have minus := digit_ne (d := '-') digit (by decide)
    have unsigned : ∀ cs, number (c :: cs) = unsignedNumber false (c :: cs) := by
      intro cs
      rw [number.eq_def]
      split
      next same => exact absurd (List.cons.inj same).1 minus
      next => rfl
    simp only [signText, Bool.false_eq_true, if_false, List.nil_append, List.cons_append] at reads ⊢
    rw [value, if_neg quote, if_neg bracket, if_neg brace, literal_digit h digit, Option.none_or,
      unsigned]
    exact reads
  | true =>
    simp only [signText, if_true, List.cons_append, List.nil_append] at reads ⊢
    rw [value, if_neg (by decide), if_neg (by decide), if_neg (by decide), literal_negative h digit,
      Option.none_or]
    exact reads

/-- The names that C++ prints for the values that are not finite. -/
def nonFiniteTexts : List (List Char) :=
  ["nan".toList, "-nan".toList, "inf".toList, "-inf".toList]

theorem value_nonFinite (h : Dialect words) {text : List Char} (nonFinite : text ∈ nonFiniteTexts) :
    Rejects (value words fuel) text := by
  intro rest
  cases fuel with
  | zero => rfl
  | succ fuel =>
    rcases h with rfl | rfl <;>
      simp only [nonFiniteTexts, List.mem_cons, List.not_mem_nil, or_false] at nonFinite <;>
      rcases nonFinite with rfl | rfl | rfl | rfl <;>
      simp [value, literal, standardWords, pythonWords, List.isPrefixOf, number, unsignedNumber,
        List.takeWhile]

end ValueTexts

section ItemTexts

variable {p : List Char → Option (Value × List Char)}

def Spaces (spaces : List Char) : Prop := ∀ c ∈ spaces, isSpace c

instance decidableSpaces (spaces : List Char) : Decidable (Spaces spaces) :=
  List.decidableBAll _ spaces

/-- The first character of a text is no space. -/
def Starts (text : List Char) : Prop := ∃ c cs, text = c :: cs ∧ ¬isSpace c

theorem skipSpace_starts {text : List Char} (h : Starts text) (rest : List Char) :
    skipSpace (text ++ rest) = text ++ rest := by
  obtain ⟨c, cs, rfl, other⟩ := h
  exact skipSpace_cons other _

theorem element_reads {spaces body : List Char} {v : Value} (blank : Spaces spaces)
    (starts : Starts body) (reads : Reads p body v) : Reads (element p) (spaces ++ body) v := by
  intro rest stops
  rw [element, List.append_assoc, skipSpace_append blank, skipSpace_starts starts,
    reads rest stops]

theorem element_rejects {spaces body : List Char} (blank : Spaces spaces) (starts : Starts body)
    (rejects : Rejects p body) : Rejects (element p) (spaces ++ body) := by
  intro rest
  rw [element, List.append_assoc, skipSpace_append blank, skipSpace_starts starts, rejects rest]

/-- A member of an object as it is printed: its name, and its text after the colon. -/
def memberText (indent name gap body : List Char) : List Char :=
  indent ++ '"' :: (name ++ '"' :: ':' :: (gap ++ body))

variable {indent name gap body : List Char}

theorem member_eq (blank : Spaces indent) (plain : Plain name) (blankGap : Spaces gap)
    (starts : Starts body) (rest : List Char) : member p (memberText indent name gap body ++ rest) =
      (p (body ++ rest)).map fun (v, cs) => ((name.map Char.toNat, v), cs) := by
  simp only [memberText, List.append_assoc, List.cons_append, member, skipSpace_append blank,
    skipSpace_cons (c := '"') (by decide), string_plain plain,
    skipSpace_cons (c := ':') (by decide), skipSpace_append blankGap, skipSpace_starts starts]

theorem member_reads {v : Value} (blank : Spaces indent) (plain : Plain name)
    (blankGap : Spaces gap) (starts : Starts body) (reads : Reads p body v) :
    Reads (member p) (memberText indent name gap body) (name.map Char.toNat, v) := by
  intro rest stops
  rw [member_eq blank plain blankGap starts, reads rest stops, Option.map_some]

theorem member_rejects (blank : Spaces indent) (plain : Plain name) (blankGap : Spaces gap)
    (starts : Starts body) (rejects : Rejects p body) :
    Rejects (member p) (memberText indent name gap body) := by
  intro rest
  rw [member_eq blank plain blankGap starts, rejects rest, Option.map_none]

end ItemTexts

section ListTexts

variable {α : Type} {item : List Char → Option (α × List Char)} {close : Char}
  {spaces : List Char}

theorem stops_close (h : Spaces spaces) {c : Char}
    (other : ¬c.isDigit ∧ c ≠ '.' ∧ c ≠ 'e' ∧ c ≠ 'E') (rest : List Char) :
    Stops (spaces ++ c :: rest) := by
  cases spaces with
  | nil => exact stops_cons rest other
  | cons d spaces =>
    refine stops_cons _ ?_
    have space : isSpace d := h d List.mem_cons_self
    simp only [isSpace, Bool.or_eq_true, decide_eq_true_eq] at space
    rcases space with ((rfl | rfl) | rfl) | rfl <;> decide

/-- The text of a list: items with commas between them, and then space. -/
def listText (first : List Char) (others : List (List Char)) (spaces : List Char) : List Char :=
  first ++ (others.flatMap (',' :: ·) ++ spaces)

theorem commaList_step {text : List Char} {x : α} (reads : Reads item text x) (n : ℕ)
    (cs : List Char) : commaList item close (n + 1) (text ++ ',' :: cs) =
      (commaList item close n cs).map fun (xs, cs) => (x :: xs, cs) := by
  simp only [commaList, reads _ (stops_cons (c := ',') cs (by decide)),
    skipSpace_cons (c := ',') (by decide), if_true]

theorem commaList_last (closes : close = ']' ∨ close = '\x7d') (blank : Spaces spaces)
    {text : List Char} {x : α} (reads : Reads item text x) (n : ℕ) (rest : List Char) :
    commaList item close (n + 1) (text ++ (spaces ++ close :: rest)) = some ([x], rest) := by
  have notComma : close ≠ ',' := by
    rcases closes with rfl | rfl <;> decide
  have stop : ¬close.isDigit ∧ close ≠ '.' ∧ close ≠ 'e' ∧ close ≠ 'E' := by
    rcases closes with rfl | rfl <;> decide
  have visible : ¬isSpace close := by
    rcases closes with rfl | rfl <;> decide
  have last : skipSpace (spaces ++ close :: rest) = close :: rest := by
    rw [skipSpace_append blank, skipSpace_cons visible]
  simp only [commaList, reads _ (stops_close blank stop rest), last, if_neg notComma, if_true]

theorem commaList_reads (closes : close = ']' ∨ close = '\x7d') (blank : Spaces spaces)
    {others : List (List Char)} :
    ∀ {first : List Char} {n : ℕ}, (∀ text ∈ first :: others, ∃ x, Reads item text x) →
      others.length < n → ∃ xs : List α, xs.length = others.length + 1 ∧ ∀ rest,
        commaList item close n (listText first others spaces ++ close :: rest) =
          some (xs, rest) := by
  induction others with
  | nil =>
    intro first n all room
    obtain ⟨n, rfl⟩ : ∃ k, n = k + 1 := ⟨n - 1, by omega⟩
    obtain ⟨x, reads⟩ := all first List.mem_cons_self
    refine ⟨[x], rfl, fun rest => ?_⟩
    rw [listText, List.flatMap_nil, List.nil_append, List.append_assoc]
    exact commaList_last closes blank reads n rest
  | cons second others ih =>
    intro first n all room
    obtain ⟨n, rfl⟩ : ∃ k, n = k + 1 := ⟨n - 1, by omega⟩
    obtain ⟨x, reads⟩ := all first List.mem_cons_self
    have shorter : others.length < n := by
      rw [List.length_cons] at room
      omega
    obtain ⟨xs, length, later⟩ :=
      ih (fun text member => all text (List.mem_cons_of_mem _ member)) shorter
    refine ⟨x :: xs, by rw [List.length_cons, length, List.length_cons], fun rest => ?_⟩
    have later := later rest
    simp only [listText, List.append_assoc] at later
    simp only [listText, List.flatMap_cons, List.cons_append, List.append_assoc]
    rw [commaList_step reads, later, Option.map_some]

/-- One item that cannot be read spoils the list. -/
theorem commaList_rejects {others : List (List Char)} :
    ∀ {first : List Char} {n : ℕ},
      (∀ text ∈ first :: others, (∃ x, Reads item text x) ∨ Rejects item text) →
      (∃ text ∈ first :: others, Rejects item text) →
      Rejects (commaList item close n) (listText first others spaces) := by
  induction others with
  | nil =>
    intro first n _ broken rest
    obtain ⟨text, member, rejects⟩ := broken
    rw [List.mem_singleton.mp member] at rejects
    cases n with
    | zero => rfl
    | succ n => simp only [listText, List.append_assoc, commaList, rejects _]
  | cons second others ih =>
    intro first n all broken rest
    cases n with
    | zero => rfl
    | succ n =>
      rcases all first List.mem_cons_self with ⟨x, reads⟩ | rejects
      · have later : ∃ text ∈ second :: others, Rejects item text := by
          obtain ⟨text, member, rejects⟩ := broken
          rcases List.mem_cons.mp member with rfl | member
          · have none := rejects []
            rw [reads [] (fun c head => by cases head)] at none
            cases none
          · exact ⟨text, member, rejects⟩
        have tail := ih (n := n) (fun text member => all text (List.mem_cons_of_mem _ member))
          later rest
        simp only [listText, List.append_assoc] at tail
        simp only [listText, List.flatMap_cons, List.cons_append, List.append_assoc]
        rw [commaList_step reads, tail, Option.map_none]
      · simp only [listText, List.append_assoc, commaList, rejects _]

end ListTexts

section Containers

variable {words : List (List Char × Value)} {fuel : ℕ} {first spaces : List Char}
  {others : List (List Char)}

/-- After its spaces a text begins with something else than a closing character. -/
def Opens (close : Char) (text : List Char) : Prop :=
  ∃ indent c cs, text = indent ++ c :: cs ∧ Spaces indent ∧ ¬isSpace c ∧ c ≠ close

theorem Opens.skipSpace_ne {close : Char} (h : Opens close first) (after cs : List Char) :
    skipSpace (listText first others spaces ++ after) ≠ close :: cs := by
  obtain ⟨indent, c, body, rfl, blank, visible, ne⟩ := h
  rw [listText, List.append_assoc, List.append_assoc, skipSpace_append blank, List.cons_append,
    skipSpace_cons visible]
  exact fun same => ne (List.cons.inj same).1

theorem value_array (opens : Opens ']' first) (after : List Char) :
    value words (fuel + 1) ('[' :: (listText first others spaces ++ after)) =
      (commaList (element (value words fuel)) ']' fuel (listText first others spaces ++ after)).map
        fun (vs, cs) => (.array vs, cs) := by
  rw [value, if_neg (by decide), if_pos rfl]
  split
  next cs closed => exact absurd closed (opens.skipSpace_ne after cs)
  next => rfl

theorem value_object (opens : Opens '\x7d' first) (after : List Char) :
    value words (fuel + 1) ('\x7b' :: (listText first others spaces ++ after)) =
      (commaList (member (value words fuel)) '\x7d' fuel (listText first others spaces ++ after)).map
        fun (ms, cs) => (.object ms, cs) := by
  rw [value, if_neg (by decide), if_neg (by decide), if_pos rfl]
  split
  next cs closed => exact absurd closed (opens.skipSpace_ne after cs)
  next => rfl

theorem object_reads (opens : Opens '\x7d' first) (blank : Spaces spaces)
    (all : ∀ text ∈ first :: others, ∃ x, Reads (member (value words fuel)) text x)
    (room : others.length < fuel) :
    ∃ v, Reads (value words (fuel + 1))
      ('\x7b' :: (listText first others spaces ++ ['\x7d'])) v := by
  obtain ⟨ms, _, reads⟩ := commaList_reads (Or.inr rfl) blank all room
  refine ⟨.object ms, fun rest _ => ?_⟩
  rw [List.cons_append, List.append_assoc, value_object opens, List.singleton_append, reads rest,
    Option.map_some]

theorem object_rejects (opens : Opens '\x7d' first)
    (all : ∀ text ∈ first :: others, (∃ x, Reads (member (value words fuel)) text x) ∨
      Rejects (member (value words fuel)) text)
    (broken : ∃ text ∈ first :: others, Rejects (member (value words fuel)) text) :
    Rejects (value words (fuel + 1)) ('\x7b' :: (listText first others spaces ++ ['\x7d'])) := by
  intro rest
  rw [List.cons_append, List.append_assoc, value_object opens, commaList_rejects all broken,
    Option.map_none]

theorem array_parses_empty (blank : Spaces spaces) {after : List Char} (blankAfter : Spaces after) :
    Parses words ('[' :: (spaces ++ ']' :: after)) (.array []) := by
  have closed : skipSpace (spaces ++ ']' :: after) = ']' :: after := by
    rw [skipSpace_append blank, skipSpace_cons (by decide)]
  have nothing : skipSpace after = [] := by
    rw [← List.append_nil after, skipSpace_append blankAfter]
    rfl
  refine ⟨1, ?_⟩
  rw [parseWith, skipSpace_cons (by decide), value, if_neg (by decide), if_pos rfl]
  simp only [closed, nothing, if_true]

/-- A text that is an array, with space around it. -/
theorem array_parses (opens : Opens ']' first) (blank : Spaces spaces) {after : List Char}
    (blankAfter : Spaces after)
    (all : ∀ text ∈ first :: others, ∃ x, Reads (element (value words fuel)) text x)
    (room : others.length < fuel) :
    ∃ vs : List Value, vs.length = others.length + 1 ∧
      Parses words ('[' :: (listText first others spaces ++ ']' :: after)) (.array vs) := by
  obtain ⟨vs, length, reads⟩ := commaList_reads (Or.inl rfl) blank all room
  have nothing : skipSpace after = [] := by
    rw [← List.append_nil after, skipSpace_append blankAfter]
    rfl
  refine ⟨vs, length, fuel + 1, ?_⟩
  rw [parseWith, skipSpace_cons (by decide), value_array opens, reads, Option.map_some]
  simp only [nothing, if_true]

theorem array_unparsable (opens : Opens ']' first) {after : List Char} {room : ℕ}
    (all : ∀ fuel, room ≤ fuel → ∀ text ∈ first :: others,
      (∃ x, Reads (element (value words fuel)) text x) ∨
        Rejects (element (value words fuel)) text)
    (broken : ∀ fuel, room ≤ fuel → ∃ text ∈ first :: others,
      Rejects (element (value words fuel)) text) (v : Value) :
    ¬Parses words ('[' :: (listText first others spaces ++ after)) v := by
  rintro ⟨fuel, parsed⟩
  rw [parseWith, skipSpace_cons (by decide)] at parsed
  split at parsed
  next v rest found =>
    have enough := value_mono words (show fuel ≤ max fuel room + 1 by omega) found
    rw [value_array opens, commaList_rejects (all _ (le_max_right _ _))
      (broken _ (le_max_right _ _)), Option.map_none] at enough
    cases enough
  next => cases parsed

end Containers

end Json
