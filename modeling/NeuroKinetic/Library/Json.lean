import Mathlib.Data.List.TakeWhile
import Mathlib.Data.List.Basic

/-! A parser of JSON texts. Its depth of recursion is bounded by a number that may be
as large as one likes: more of it never reads less. -/

namespace Json

/-- A number is its digits, scaled by a power of ten; a string is its code points. -/
inductive Value where
  | null
  | bool (b : Bool)
  | constant (name : List Char)
  | number (negative : Bool) (digits : ℕ) (exponent : ℤ)
  | string (codePoints : List ℕ)
  | array (items : List Value)
  | object (members : List (List ℕ × Value))

def isSpace (c : Char) : Bool := c = ' ' || c = '\n' || c = '\t' || c = '\r'

def skipSpace (cs : List Char) : List Char := cs.dropWhile isSpace

section Numbers

def fraction : List Char → Option (List Char × List Char)
  | '.' :: cs =>
    let digits := cs.takeWhile Char.isDigit
    if digits = [] then none else some (digits, cs.dropWhile Char.isDigit)
  | cs => some ([], cs)

def exponentDigits (negative : Bool) (cs : List Char) : Option (ℤ × List Char) :=
  let digits := cs.takeWhile Char.isDigit
  if digits = [] then none
  else
    let size : ℤ := Nat.ofDigitChars 10 digits 0
    some (if negative then -size else size, cs.dropWhile Char.isDigit)

def exponent : List Char → Option (ℤ × List Char)
  | [] => some (0, [])
  | c :: cs =>
    if c = 'e' ∨ c = 'E' then
      match cs with
      | '-' :: cs => exponentDigits true cs
      | '+' :: cs => exponentDigits false cs
      | cs => exponentDigits false cs
    else some (0, c :: cs)

def unsignedNumber (negative : Bool) (cs : List Char) : Option (Value × List Char) :=
  let whole := cs.takeWhile Char.isDigit
  -- no digits at all, or a zero in front of others
  if whole = [] ∨ (whole.head? = some '0' ∧ whole ≠ ['0']) then none
  else
    match fraction (cs.dropWhile Char.isDigit) with
    | none => none
    | some (digits, cs) =>
      match exponent cs with
      | none => none
      | some (e, cs) =>
        some (.number negative (Nat.ofDigitChars 10 (whole ++ digits) 0) (e - digits.length), cs)

def number : List Char → Option (Value × List Char)
  | '-' :: cs => unsignedNumber true cs
  | cs => unsignedNumber false cs

end Numbers

section Strings

def hexDigit (c : Char) : Option ℕ :=
  if c.isDigit then some (c.toNat - 48)
  else if 'a' ≤ c ∧ c ≤ 'f' then some (c.toNat - 87)
  else if 'A' ≤ c ∧ c ≤ 'F' then some (c.toNat - 55)
  else none

def hexDigits (a b c d : Char) : Option ℕ :=
  match hexDigit a, hexDigit b, hexDigit c, hexDigit d with
  | some a, some b, some c, some d => some (((a * 16 + b) * 16 + c) * 16 + d)
  | _, _, _, _ => none

/-- The escapes of one character. -/
def escape : Char → Option ℕ
  | '"' => some 34
  | '\\' => some 92
  | '/' => some 47
  | 'b' => some 8
  | 'f' => some 12
  | 'n' => some 10
  | 'r' => some 13
  | 't' => some 9
  | _ => none

/-- The characters of a string up to its closing quote. -/
def stringBody : List Char → Option (List ℕ × List Char)
  | [] => none
  | '"' :: rest => some ([], rest)
  | '\\' :: 'u' :: a :: b :: c :: d :: rest =>
    match hexDigits a b c d, stringBody rest with
    | some unit, some (units, rest) => some (unit :: units, rest)
    | _, _ => none
  | '\\' :: e :: rest =>
    match escape e, stringBody rest with
    | some unit, some (units, rest) => some (unit :: units, rest)
    | _, _ => none
  | c :: rest =>
    if c = '\\' ∨ c.toNat < 32 then none
    else (stringBody rest).map fun (units, rest) => (c.toNat :: units, rest)

/-- A pair of surrogates, which only escapes can give, is one code point. -/
def joinSurrogates : List ℕ → List ℕ
  | high :: low :: rest =>
    if 0xD800 ≤ high ∧ high < 0xDC00 ∧ 0xDC00 ≤ low ∧ low < 0xE000 then
      (0x10000 + (high - 0xD800) * 0x400 + (low - 0xDC00)) :: joinSurrogates rest
    else high :: joinSurrogates (low :: rest)
  | units => units

def string (cs : List Char) : Option (List ℕ × List Char) :=
  (stringBody cs).map fun (units, rest) => (joinSurrogates units, rest)

end Strings

section Values

/-- Items with commas between them, at least one, up to the closing character. -/
def commaList {α : Type} (item : List Char → Option (α × List Char)) (close : Char) :
    ℕ → List Char → Option (List α × List Char)
  | 0, _ => none
  | fuel + 1, cs =>
    match item cs with
    | none => none
    | some (x, cs) =>
      match skipSpace cs with
      | [] => none
      | c :: cs =>
        if c = ',' then (commaList item close fuel cs).map fun (xs, cs) => (x :: xs, cs)
        else if c = close then some ([x], cs)
        else none

def element (value : List Char → Option (Value × List Char)) (cs : List Char) :
    Option (Value × List Char) :=
  value (skipSpace cs)

def member (value : List Char → Option (Value × List Char)) (cs : List Char) :
    Option ((List ℕ × Value) × List Char) :=
  match skipSpace cs with
  | '"' :: cs =>
    match string cs with
    | none => none
    | some (key, cs) =>
      match skipSpace cs with
      | ':' :: cs => (value (skipSpace cs)).map fun (v, cs) => ((key, v), cs)
      | _ => none
  | _ => none

/-- The words of a dialect, and what they stand for. -/
def literal (words : List (List Char × Value)) (cs : List Char) : Option (Value × List Char) :=
  (words.find? fun word => word.1.isPrefixOf cs).map fun word => (word.2, cs.drop word.1.length)

def value (words : List (List Char × Value)) : ℕ → List Char → Option (Value × List Char)
  | 0, _ => none
  | _ + 1, [] => none
  | fuel + 1, c :: cs =>
    if c = '"' then (string cs).map fun (s, cs) => (.string s, cs)
    else if c = '[' then
      match skipSpace cs with
      | ']' :: cs => some (.array [], cs)
      | _ => (commaList (element (value words fuel)) ']' fuel cs).map fun (vs, cs) => (.array vs, cs)
    else if c = '\x7b' then
      match skipSpace cs with
      | '\x7d' :: cs => some (.object [], cs)
      | _ => (commaList (member (value words fuel)) '\x7d' fuel cs).map fun (ms, cs) => (.object ms, cs)
    else (literal words (c :: cs)).or (number (c :: cs))

/-- One value with nothing but space around it. -/
def parseWith (words : List (List Char × Value)) (fuel : ℕ) (text : List Char) : Option Value :=
  match value words fuel (skipSpace text) with
  | some (v, rest) => if skipSpace rest = [] then some v else none
  | none => none

/-- The parser reads a text as a value, given room to recurse. -/
def Parses (words : List (List Char × Value)) (text : List Char) (v : Value) : Prop :=
  ∃ fuel, parseWith words fuel text = some v

def standardWords : List (List Char × Value) :=
  [("null".toList, .null), ("true".toList, .bool true), ("false".toList, .bool false)]

/-- The parser of Python also takes its own names for the values JSON does not have. -/
def pythonWords : List (List Char × Value) :=
  standardWords ++ [("NaN".toList, .constant "NaN".toList),
    ("Infinity".toList, .constant "Infinity".toList),
    ("-Infinity".toList, .constant "-Infinity".toList)]

end Values

section Fuel

theorem commaList_mono {α : Type} {p q : List Char → Option (α × List Char)} {close : Char}
    (more : ∀ cs r, p cs = some r → q cs = some r) {n m : ℕ} (le : n ≤ m) :
    ∀ {cs r}, commaList p close n cs = some r → commaList q close m cs = some r := by
  induction n generalizing m with
  | zero =>
    intro cs r h
    cases h
  | succ n ih =>
    intro cs r h
    obtain ⟨m, rfl⟩ : ∃ k, m = k + 1 := ⟨m - 1, by omega⟩
    rw [commaList] at h ⊢
    split at h
    next => cases h
    next x rest found =>
      simp only [more _ _ found]
      split at h
      next => cases h
      next c cs after =>
        split at h
        next comma =>
          obtain ⟨xs, others, rfl⟩ := Option.map_eq_some_iff.mp h
          rw [if_pos comma, ih (Nat.le_of_succ_le_succ le) others, Option.map_some]
        next other =>
          rw [if_neg other]
          exact h

theorem element_mono {p q : List Char → Option (Value × List Char)}
    (more : ∀ cs r, p cs = some r → q cs = some r) :
    ∀ cs r, element p cs = some r → element q cs = some r :=
  fun cs => more (skipSpace cs)

theorem member_mono {p q : List Char → Option (Value × List Char)}
    (more : ∀ cs r, p cs = some r → q cs = some r) :
    ∀ cs r, member p cs = some r → member q cs = some r := by
  intro cs r h
  rw [member] at h ⊢
  split at h
  next cs quoted =>
    split at h
    next => cases h
    next key rest name =>
      split at h
      next cs colon =>
        obtain ⟨v, found, rfl⟩ := Option.map_eq_some_iff.mp h
        rw [more _ _ found, Option.map_some]
      next => cases h
  next => cases h

/-- With more room the parser reads no less. -/
theorem value_mono (words : List (List Char × Value)) {n m : ℕ} (le : n ≤ m) :
    ∀ {cs r}, value words n cs = some r → value words m cs = some r := by
  induction n generalizing m with
  | zero =>
    intro cs r h
    cases h
  | succ n ih =>
    intro cs r h
    obtain ⟨m, rfl⟩ : ∃ k, m = k + 1 := ⟨m - 1, by omega⟩
    have le : n ≤ m := Nat.le_of_succ_le_succ le
    cases cs with
    | nil => cases h
    | cons c cs =>
      rw [value] at h ⊢
      split at h
      next quote =>
        rw [if_pos quote]
        exact h
      next notQuote =>
        rw [if_neg notQuote]
        split at h
        next bracket =>
          rw [if_pos bracket]
          split at h
          next cs closed => exact h
          next opened =>
            obtain ⟨vs, others, rfl⟩ := Option.map_eq_some_iff.mp h
            rw [commaList_mono (element_mono fun _ _ => ih le) le others, Option.map_some]
        next notBracket =>
          rw [if_neg notBracket]
          split at h
          next brace =>
            rw [if_pos brace]
            split at h
            next cs closed => exact h
            next opened =>
              obtain ⟨ms, others, rfl⟩ := Option.map_eq_some_iff.mp h
              rw [commaList_mono (member_mono fun _ _ => ih le) le others, Option.map_some]
          next notBrace =>
            rw [if_neg notBrace]
            exact h

end Fuel

end Json
