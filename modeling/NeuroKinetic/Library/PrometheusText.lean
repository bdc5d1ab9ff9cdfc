import NeuroKinetic.Library.SignificantDigits

/-! The text format of Prometheus, as far as lines that tell a type and samples of at most
one label go. -/

open Binary32 OutputStream SignificantDigits

namespace PrometheusText

/-- A line, with a text or a value for what is measured. -/
inductive Line (α : Type) where
  | type (name kind : List Char)
  | sample (name : List Char) (label : Option (List Char × List Char)) (value : α)

section Printing

def typeStart : List Char := "# TYPE ".toList

def labelText : Option (List Char × List Char) → List Char
  | none => []
  | some (key, label) => '\x7b' :: (key ++ '=' :: '"' :: (label ++ ['"', '\x7d']))

def Line.text : Line (List Char) → List Char
  | .type name kind => typeStart ++ (name ++ ' ' :: kind)
  | .sample name label value => name ++ (labelText label ++ ' ' :: value)

def body (lines : List (Line (List Char))) : List Char := lines.flatMap fun line => line.text ++ ['\n']

end Printing

section Reading

def isNameChar (c : Char) : Bool := c.isAlphanum || c = '_' || c = ':'

def kinds : List (List Char) :=
  ["counter".toList, "gauge".toList, "histogram".toList, "summary".toList, "untyped".toList]

/-- Something, and no digit first. -/
def startsName (name : List Char) : Bool := name.head?.any fun c => !c.isDigit

def readName (text : List Char) : Option (List Char × List Char) :=
  let name := text.takeWhile isNameChar
  if startsName name then some (name, text.dropWhile isNameChar) else none

/-- A label without escapes, up to its closing quote. -/
def readQuoted (text : List Char) : Option (List Char × List Char) :=
  let label := text.takeWhile (· ≠ '"')
  match text.dropWhile (· ≠ '"') with
  | '"' :: rest => if '\\' ∈ label then none else some (label, rest)
  | _ => none

def readLabel : List Char → Option (Option (List Char × List Char) × List Char)
  | '\x7b' :: text =>
    match readName text with
    | some (key, '=' :: '"' :: rest) =>
      match readQuoted rest with
      | some (label, '\x7d' :: rest) => some (some (key, label), rest)
      | _ => none
    | _ => none
  | text => some (none, text)

variable {α β : Type}

def readType (text : List Char) : Option (Line α) :=
  match readName text with
  | some (name, ' ' :: kind) => if kinds.contains kind then some (.type name kind) else none
  | _ => none

def readSample (value : List Char → Option α) (text : List Char) : Option (Line α) :=
  match readName text with
  | none => none
  | some (name, rest) =>
    match readLabel rest with
    | some (label, ' ' :: rest) => (value rest).map (.sample name label)
    | _ => none

def readLine (value : List Char → Option α) (text : List Char) : Option (Line α) :=
  if typeStart.isPrefixOf text then readType (text.drop typeStart.length) else readSample value text

/-- The lines of a text; the last one is ended, too. -/
def parse (value : List Char → Option α) (text : List Char) : Option (List (Line α)) :=
  let lines := text.splitOn '\n'
  if lines.getLast? = some [] then lines.dropLast.mapM (readLine value) else none

/-- The line whose value is read. -/
def Line.read (value : α → Option β) : Line α → Option (Line β)
  | .type name kind => some (.type name kind)
  | .sample name label x => (value x).map (.sample name label)

end Reading

section RoundTrip

def Name (name : List Char) : Prop := (name.all isNameChar && startsName name) = true

instance decidableName (name : List Char) : Decidable (Name name) :=
  inferInstanceAs (Decidable (_ = true))

/-- A label that needs no escapes. -/
def PlainLabel (label : List Char) : Prop :=
  (label.all fun c => c != '"' && c != '\\' && c != '\n') = true

instance decidablePlainLabel (label : List Char) : Decidable (PlainLabel label) :=
  inferInstanceAs (Decidable (_ = true))

def Line.Plain : Line (List Char) → Prop
  | .type name kind => Name name ∧ kinds.contains kind
  | .sample name label value =>
    Name name ∧ (∀ pair ∈ label, Name pair.1 ∧ PlainLabel pair.2) ∧ '\n' ∉ value

theorem plain_bare {name value : List Char} (isName : Name name) (visible : '\n' ∉ value) :
    (Line.sample name none value).Plain := by
  refine ⟨isName, fun pair member => ?_, visible⟩
  cases member

theorem plain_labelled {name key label value : List Char} (isName : Name name) (isKey : Name key)
    (plain : PlainLabel label) (visible : '\n' ∉ value) :
    (Line.sample name (some (key, label)) value).Plain := by
  refine ⟨isName, fun pair member => ?_, visible⟩
  cases member
  exact ⟨isKey, plain⟩

theorem Name.parts {name : List Char} (h : Name name) :
    (∀ c ∈ name, isNameChar c) ∧ startsName name = true := by
  obtain ⟨all, start⟩ := Bool.and_eq_true_iff.mp h
  exact ⟨List.all_eq_true.mp all, start⟩

theorem PlainLabel.visible {label : List Char} (h : PlainLabel label) {c : Char}
    (member : c ∈ label) : c ≠ '"' ∧ c ≠ '\\' ∧ c ≠ '\n' := by
  have plain := List.all_eq_true.mp h c member
  simpa only [Bool.and_eq_true, bne_iff_ne, and_assoc] using plain

theorem takeWhile_stop {p : Char → Bool} {run : List Char} {c : Char}
    (all : ∀ d ∈ run, p d) (stop : ¬p c) (rest : List Char) :
    (run ++ c :: rest).takeWhile p = run ∧ (run ++ c :: rest).dropWhile p = c :: rest := by
  rw [List.takeWhile_append_of_pos all, List.dropWhile_append_of_pos all,
    List.takeWhile_cons_of_neg stop, List.dropWhile_cons_of_neg stop, List.append_nil]
  exact ⟨rfl, rfl⟩

theorem readName_stop {name : List Char} (h : Name name) {c : Char} (stop : ¬isNameChar c)
    (rest : List Char) : readName (name ++ c :: rest) = some (name, c :: rest) := by
  obtain ⟨all, start⟩ := h.parts
  obtain ⟨taken, dropped⟩ := takeWhile_stop all stop rest
  simp only [readName, taken, dropped, start, if_true]

theorem readQuoted_plain {label : List Char} (h : PlainLabel label) (rest : List Char) :
    readQuoted (label ++ '"' :: rest) = some (label, rest) := by
  have all : ∀ c ∈ label, decide (c ≠ '"') = true := fun c member =>
    decide_eq_true (h.visible member).1
  have stop : ¬decide ('"' ≠ '"') = true := by decide
  obtain ⟨taken, dropped⟩ := takeWhile_stop all stop rest
  have noEscape : '\\' ∉ label := fun member => (h.visible member).2.1 rfl
  simp only [readQuoted, taken, dropped, if_neg noEscape]

theorem readLabel_text {label : Option (List Char × List Char)}
    (h : ∀ pair ∈ label, Name pair.1 ∧ PlainLabel pair.2) (rest : List Char) :
    readLabel (labelText label ++ ' ' :: rest) = some (label, ' ' :: rest) := by
  cases label with
  | none => rfl
  | some pair =>
    obtain ⟨key, label⟩ := pair
    obtain ⟨isName, plain⟩ := h (key, label) rfl
    have first := readName_stop isName (c := '=') (by decide)
      ('"' :: (label ++ '"' :: '\x7d' :: ' ' :: rest))
    simp only [labelText, List.cons_append, List.append_assoc, List.nil_append, readLabel, first,
      readQuoted_plain plain]

variable {α : Type} (value : List Char → Option α)

/-- A sample's name does not begin the way a type does. -/
theorem typeStart_not_name {name : List Char} (h : Name name) (rest : List Char) :
    ¬typeStart.isPrefixOf (name ++ rest) := by
  obtain ⟨all, first⟩ := h.parts
  obtain ⟨c, cs, rfl⟩ : ∃ c cs, name = c :: cs := by
    cases name with
    | nil => cases first
    | cons c cs => exact ⟨c, cs, rfl⟩
  intro start
  obtain ⟨more, same⟩ := List.isPrefixOf_iff_prefix.mp start
  have sign : '#' = c := (List.cons.inj same).1
  have plain := all c List.mem_cons_self
  rw [← sign] at plain
  exact absurd plain (by decide)

theorem readLine_text {line : Line (List Char)} (h : line.Plain) :
    readLine value line.text = line.read value := by
  cases line with
  | type name kind =>
    obtain ⟨isName, known⟩ := h
    have first := readName_stop isName (c := ' ') (by decide) kind
    have start : typeStart.isPrefixOf (typeStart ++ (name ++ ' ' :: kind)) :=
      List.isPrefixOf_iff_prefix.mpr (List.prefix_append _ _)
    simp only [Line.text, readLine, start, if_true, List.drop_left, readType, first, if_pos known,
      Line.read]
  | sample name label x =>
    obtain ⟨isName, plain, _⟩ := h
    have next : ∃ c cs, labelText label ++ ' ' :: x = c :: cs ∧ ¬isNameChar c := by
      cases label with
      | none => exact ⟨' ', x, rfl, by decide⟩
      | some pair => exact ⟨'\x7b', _, rfl, by decide⟩
    obtain ⟨c, cs, eq, stop⟩ := next
    have first := readName_stop isName stop cs
    rw [← eq] at first
    simp only [Line.text, readLine, if_neg (typeStart_not_name isName _), readSample, first,
      readLabel_text plain, Line.read]

theorem newline_not_name {name : List Char} (h : Name name) : '\n' ∉ name := fun member =>
  absurd (h.parts.1 _ member) (by decide)

theorem newline_not_text {line : Line (List Char)} (h : line.Plain) : '\n' ∉ line.text := by
  cases line with
  | type name kind =>
    obtain ⟨isName, known⟩ := h
    have visible : ∀ kind ∈ kinds, '\n' ∉ kind := by decide
    have member : kind ∈ kinds := List.contains_iff_mem.mp known
    have start : '\n' ∉ typeStart := by decide
    have noName := newline_not_name isName
    have noKind := visible kind member
    have space : '\n' ≠ ' ' := by decide
    simp only [Line.text, List.mem_append, List.mem_cons, start, noName, noKind, space, or_self,
      not_false_eq_true]
  | sample name label x =>
    obtain ⟨isName, plain, noValue⟩ := h
    have noName := newline_not_name isName
    have noLabel : '\n' ∉ labelText label := by
      cases label with
      | none => exact List.not_mem_nil
      | some pair =>
        obtain ⟨key, label⟩ := pair
        obtain ⟨isKey, plain⟩ := plain (key, label) rfl
        have noKey := newline_not_name isKey
        have noText : '\n' ∉ label := fun member => (plain.visible member).2.2 rfl
        have signs : '\n' ≠ '\x7b' ∧ '\n' ≠ '=' ∧ '\n' ≠ '"' ∧ '\n' ≠ '\x7d' := by decide
        simp only [labelText, List.mem_cons, List.mem_append, noKey, noText, signs.1, signs.2.1,
          signs.2.2.1, signs.2.2.2, List.not_mem_nil, or_self, not_false_eq_true]
    have space : '\n' ≠ ' ' := by decide
    simp only [Line.text, List.mem_append, List.mem_cons, noName, noLabel, noValue, space, or_self,
      not_false_eq_true]

theorem splitOn_body {lines : List (Line (List Char))} (h : ∀ line ∈ lines, line.Plain) :
    (body lines).splitOn '\n' = lines.map Line.text ++ [[]] := by
  induction lines with
  | nil => rfl
  | cons line rest ih =>
    have first := newline_not_text (h line List.mem_cons_self)
    have later := ih fun line member => h line (List.mem_cons_of_mem _ member)
    rw [body, List.flatMap_cons, List.append_assoc, List.singleton_append,
      List.splitOn_append_cons_self, List.splitOn_eq_singleton first, ← body, later]
    rfl

/-- What is read of printed lines: all of them, if every value can be read, and nothing
otherwise. -/
theorem parse_body {lines : List (Line (List Char))} (h : ∀ line ∈ lines, line.Plain) :
    parse value (body lines) = lines.mapM (Line.read value) := by
  have last : (lines.map Line.text ++ [[]]).getLast? = some [] := List.getLast?_concat
  rw [parse, splitOn_body h]
  simp only [last, if_true, List.dropLast_concat]
  clear last
  induction lines with
  | nil => rfl
  | cons line rest ih =>
    have later := ih fun line member => h line (List.mem_cons_of_mem _ member)
    rw [List.map_cons, List.mapM_cons, List.mapM_cons, readLine_text value (h line List.mem_cons_self),
      later]

variable {β : Type} {value} {read : α → Option β} {lines : List (Line α)}

theorem read_sample (name : List Char) (label : Option (List Char × List Char)) {x : α} {y : β}
    (eq : read x = some y) :
    (Line.sample name label x).read read = some (.sample name label y) := by
  rw [Line.read, eq, Option.map_some]

theorem mapM_read {told : List (Line β)}
    (all : List.Forall₂ (fun line other => line.read read = some other) lines told) :
    lines.mapM (Line.read read) = some told := by
  induction all with
  | nil => rfl
  | cons first _ ih =>
    rw [List.mapM_cons, first, ih]
    rfl

/-- One value that cannot be read spoils the whole text. -/
theorem mapM_unread {line : Line α} (member : line ∈ lines) (unread : line.read read = none) :
    lines.mapM (Line.read read) = none := by
  induction lines with
  | nil => cases member
  | cons other rest ih =>
    rw [List.mapM_cons]
    rcases List.mem_cons.mp member with rfl | later
    · rw [unread]
      rfl
    · rw [ih later]
      cases other.read read <;> rfl

end RoundTrip

section Values

/-- A number, or one of the words; a sign before `nan` is not among them. -/
def readValue (text : List Char) : Option (Ieee ℚ) :=
  match readNumber text with
  | some x => some (.fin x)
  | none =>
    let word := text.map Char.toLower
    if word = "nan".toList then some .nan
    else if word = "inf".toList ∨ word = "+inf".toList then some .posInf
    else if word = "-inf".toList then some .negInf
    else none

/-- A float that a stream prints as `-nan`. -/
def NegativeNan (w : BitVec 32) : Prop := infinityBits < w.toNat % 2 ^ 31 ∧ 2 ^ 31 ≤ w.toNat

instance decidableNegativeNan (w : BitVec 32) : Decidable (NegativeNan w) :=
  inferInstanceAs (Decidable (_ ∧ _))

variable {K : Type} [Field K]

theorem NegativeNan.decode_eq {w : BitVec 32} (h : NegativeNan w) : (decode w : Ieee K) = .nan := by
  have notFinite : ¬w.toNat % 2 ^ 31 < infinityBits := not_lt.mpr h.1.le
  rw [decode]
  simp only [if_neg notFinite, if_neg h.1.ne']

variable [LinearOrder K]

/-- What is read is the value itself, a number to within one part in 199999. -/
def Shows : Ieee ℚ → Ieee K → Prop
  | .fin y, .fin x => |(y : K) - x| * 199999 ≤ |x|
  | .posInf, .posInf => True
  | .negInf, .negInf => True
  | .nan, .nan => True
  | _, _ => False

theorem Shows.fin {y : Ieee ℚ} {x : K} (h : Shows y (.fin x)) :
    ∃ number, y = .fin number ∧ |(number : K) - x| * 199999 ≤ |x| := by
  cases y with
  | fin number => exact ⟨number, rfl, h⟩
  | posInf => exact h.elim
  | negInf => exact h.elim
  | nan => exact h.elim

theorem newline_not_number {text : List Char} {x : ℚ} (h : Denotes text x) : '\n' ∉ text := by
  intro member
  rcases h.mem member with digit | sign
  · exact absurd digit (by decide)
  · exact absurd sign (by decide)

theorem newline_not_formatUint {bits : Nat} (w : BitVec bits) : '\n' ∉ formatUint w :=
  newline_not_number (denotes_toDigits w.toNat)

theorem newline_not_formatFloat (w : BitVec 32) : '\n' ∉ formatFloat w := by
  have digits := newline_not_number
    (formatMagnitude_denotes (magnitude_nonneg (K := ℚ) (w.toNat % 2 ^ 31)))
  have sign : '\n' ∉ Json.signText (decide (2 ^ 31 ≤ w.toNat)) := by
    cases decide (2 ^ 31 ≤ w.toNat) <;> decide
  rw [formatFloat, List.mem_append, not_or]
  refine ⟨sign, ?_⟩
  split
  next => exact digits
  next =>
    split
    next => decide
    next => decide

theorem readValue_toDigits (n : ℕ) : readValue (Nat.toDigits 10 n) = some (.fin n) := by
  rw [readValue, readNumber_toDigits]

theorem readValue_formatMagnitude {x : ℚ} (nonneg : 0 ≤ x) :
    readValue (formatMagnitude x) = some (.fin (roundTo 10 5 x)) := by
  have number := readNumber_denotes false (formatMagnitude_denotes nonneg)
  have read : readNumber (formatMagnitude x) = some (roundTo 10 5 x) := number
  rw [readValue, read]

theorem readValue_negativeNan {w : BitVec 32} (h : NegativeNan w) :
    readValue (formatFloat w) = none := by
  have notFinite : ¬w.toNat % 2 ^ 31 < infinityBits := not_lt.mpr h.1.le
  have text : formatFloat w = "-nan".toList := by
    rw [formatFloat]
    simp only [decide_eq_true h.2, if_neg notFinite, if_neg h.1.ne']
    rfl
  rw [text]
  rfl

section Floats

variable [IsStrictOrderedRing K]

theorem cast_magnitude (n : ℕ) : ((magnitude n : ℚ) : K) = magnitude n := by
  unfold magnitude pow2
  split <;> push_cast <;> rfl

theorem shows_roundTo {x : ℚ} (nonneg : 0 ≤ x) :
    |((roundTo 10 5 x : ℚ) : K) - x| * 199999 ≤ |(x : K)| := by
  have near := roundTo_near (K := ℚ) (show 1 < 10 by decide) 5 nonneg
  have cast : |roundTo 10 5 x - x| * 199999 ≤ |x| := by
    rw [abs_of_nonneg nonneg]
    have size := abs_nonneg (roundTo 10 5 x - x)
    norm_num at near
    linarith
  exact_mod_cast cast

/-- Any other float is read, as the number to six digits or as the word for it. -/
theorem readValue_formatFloat {w : BitVec 32} (h : ¬NegativeNan w) :
    ∃ y, readValue (formatFloat w) = some y ∧ Shows y (decode w : Ieee K) := by
  have nonneg : (0 : ℚ) ≤ magnitude (w.toNat % 2 ^ 31) := magnitude_nonneg _
  have near := shows_roundTo (K := K) nonneg
  rw [cast_magnitude] at near
  by_cases finite : w.toNat % 2 ^ 31 < infinityBits
  · have read := readNumber_denotes (decide (2 ^ 31 ≤ w.toNat)) (formatMagnitude_denotes nonneg)
    have text : formatFloat w = Json.signText (decide (2 ^ 31 ≤ w.toNat)) ++
        formatMagnitude (magnitude (w.toNat % 2 ^ 31)) := by
      rw [formatFloat]
      simp only [if_pos finite]
    by_cases negative : 2 ^ 31 ≤ w.toNat
    · refine ⟨.fin (-roundTo 10 5 (magnitude (w.toNat % 2 ^ 31))), ?_, ?_⟩
      · rw [text, readValue, read]
        simp only [decide_eq_true negative, if_true]
      · rw [decode]
        simp only [if_pos finite, if_pos negative, Shows, Rat.cast_neg]
        rwa [neg_sub_neg, abs_sub_comm, abs_neg]
    · refine ⟨.fin (roundTo 10 5 (magnitude (w.toNat % 2 ^ 31))), ?_, ?_⟩
      · rw [text, readValue, read]
        simp only [decide_eq_false negative, Bool.false_eq_true, if_false]
      · rw [decode]
        simp only [if_pos finite, if_neg negative, Shows]
        exact near
  · by_cases infinite : w.toNat % 2 ^ 31 = infinityBits
    · by_cases negative : 2 ^ 31 ≤ w.toNat
      · refine ⟨.negInf, ?_, ?_⟩
        · rw [formatFloat]
          simp only [decide_eq_true negative, if_neg finite, if_pos infinite]
          rfl
        · rw [decode]
          simp only [if_neg finite, if_pos infinite, if_pos negative, Shows]
      · refine ⟨.posInf, ?_, ?_⟩
        · rw [formatFloat]
          simp only [decide_eq_false negative, if_neg finite, if_pos infinite]
          rfl
        · rw [decode]
          simp only [if_neg finite, if_pos infinite, if_neg negative, Shows]
    · have positive : ¬2 ^ 31 ≤ w.toNat := fun negative => h ⟨by omega, negative⟩
      refine ⟨.nan, ?_, ?_⟩
      · rw [formatFloat]
        simp only [decide_eq_false positive, if_neg finite, if_neg infinite]
        rfl
      · rw [decode]
        simp only [if_neg finite, if_neg infinite, Shows]

end Floats

end Values

end PrometheusText
