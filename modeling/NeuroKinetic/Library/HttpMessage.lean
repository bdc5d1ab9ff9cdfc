import Mathlib.Data.List.Basic

/-! Messages of a head and a body: lines that end in CR LF, an empty line after them, and
as many characters as a field of the head tells. -/

namespace HttpMessage

def crlf : List Char := ['\r', '\n']

def message (lines : List (List Char)) (body : List Char) : List Char :=
  lines.flatMap (· ++ crlf) ++ (crlf ++ body)

/-- The characters up to the first CR LF, and what follows it. -/
def readLine : List Char → Option (List Char × List Char)
  | [] => none
  | '\r' :: '\n' :: rest => some ([], rest)
  | c :: rest => (readLine rest).map fun (line, rest) => (c :: line, rest)

/-- The lines of a head of at most `fuel` lines, the empty one included. -/
def readHead : ℕ → List Char → Option (List (List Char) × List Char)
  | 0, _ => none
  | fuel + 1, text =>
    match readLine text with
    | none => none
    | some ([], rest) => some ([], rest)
    | some (line, rest) => (readHead fuel rest).map fun (lines, rest) => (line :: lines, rest)

def lengthName : List Char := "Content-Length: ".toList

/-- The length that the head tells. -/
def toldLength (lines : List (List Char)) : Option ℕ :=
  lines.findSome? fun line =>
    if lengthName.isPrefixOf line then some (Nat.ofDigitChars 10 (line.drop lengthName.length) 0)
    else none

/-- What a receiver takes for the head and the body of a message. -/
def receive (text : List Char) : Option (List (List Char) × List Char) :=
  match readHead text.length text with
  | none => none
  | some (lines, rest) =>
    match toldLength lines with
    | none => none
    | some length => if length ≤ rest.length then some (lines, rest.take length) else none

/-- A line that can stand in a head. -/
def HeadLine (line : List Char) : Prop := line ≠ [] ∧ '\r' ∉ line

theorem readLine_crlf {line : List Char} (h : '\r' ∉ line) (rest : List Char) :
    readLine (line ++ (crlf ++ rest)) = some (line, rest) := by
  induction line with
  | nil => rfl
  | cons c line ih =>
    obtain ⟨other, later⟩ := not_or.mp fun either => h (List.mem_cons.mpr either)
    have tail := ih later
    rw [List.cons_append, readLine.eq_def]
    split
    next none => cases none
    next same => exact absurd (List.cons.inj same).1.symm other
    next d more _ same =>
      obtain ⟨rfl, rfl⟩ := List.cons.inj same
      rw [tail, Option.map_some]

theorem readHead_message {lines : List (List Char)} (h : ∀ line ∈ lines, HeadLine line)
    (body : List Char) {fuel : ℕ} (room : lines.length < fuel) :
    readHead fuel (message lines body) = some (lines, body) := by
  induction lines generalizing fuel with
  | nil =>
    obtain ⟨fuel, rfl⟩ : ∃ k, fuel = k + 1 := ⟨fuel - 1, by omega⟩
    rfl
  | cons line lines ih =>
    obtain ⟨fuel, rfl⟩ : ∃ k, fuel = k + 1 := ⟨fuel - 1, by omega⟩
    obtain ⟨visible, plain⟩ := h line List.mem_cons_self
    have tail := ih (fun line member => h line (List.mem_cons_of_mem _ member))
      (Nat.lt_of_succ_lt_succ room)
    obtain ⟨c, cs, rfl⟩ := List.exists_cons_of_ne_nil visible
    have first : readLine (message ((c :: cs) :: lines) body) =
        some (c :: cs, message lines body) := by
      rw [message, List.flatMap_cons, List.append_assoc, List.append_assoc]
      exact readLine_crlf plain _
    rw [readHead, first]
    simp only [tail, Option.map_some]

theorem length_message_lt (lines : List (List Char)) (body : List Char) :
    lines.length < (message lines body).length := by
  have head : lines.length ≤ (lines.flatMap (· ++ crlf)).length := by
    induction lines with
    | nil => exact Nat.le_refl _
    | cons line lines ih =>
      rw [List.flatMap_cons, List.length_append, List.length_append, List.length_cons]
      have : crlf.length = 2 := rfl
      omega
  rw [message, List.length_append, List.length_append]
  have : crlf.length = 2 := rfl
  omega

/-- A receiver gets the body that was sent, whatever the body holds. -/
theorem receive_message {lines : List (List Char)} (h : ∀ line ∈ lines, HeadLine line)
    {body : List Char} (told : toldLength lines = some body.length) :
    receive (message lines body) = some (lines, body) := by
  rw [receive, readHead_message h body (length_message_lt lines body)]
  simp only [told, Nat.le_refl, if_true, List.take_length]

theorem toldLength_digits (n : ℕ) (before : List (List Char))
    (other : ∀ line ∈ before, ¬lengthName.isPrefixOf line) (after : List (List Char)) :
    toldLength (before ++ (lengthName ++ Nat.toDigits 10 n) :: after) = some n := by
  have none : before.findSome? (fun line =>
      if lengthName.isPrefixOf line then some (Nat.ofDigitChars 10 (line.drop lengthName.length) 0)
      else none) = none := by
    refine List.findSome?_eq_none_iff.mpr fun line member => ?_
    rw [if_neg (other line member)]
  have field : lengthName.isPrefixOf (lengthName ++ Nat.toDigits 10 n) :=
    List.isPrefixOf_iff_prefix.mpr (List.prefix_append _ _)
  rw [toldLength, List.findSome?_append, none, Option.none_or, List.findSome?_cons]
  simp only [field, if_true, List.drop_left, Nat.ofDigitChars_ten_toDigits]

end HttpMessage
