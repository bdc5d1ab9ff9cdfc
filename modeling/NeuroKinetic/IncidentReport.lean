import NeuroKinetic.IncidentLog
import NeuroKinetic.Library.OutputStream

open Json OrderedStore OutputStream PaddedDecimal

namespace NeuroKinetic

/-- The bytes of a key go to the stream as they are. -/
def keyText (key : List UInt8) : List Char := key.map fun b => Char.ofNat b.toNat

/-- A field of an incident as it is printed, its name quoted. -/
def fieldText (name : String) (text : List Char) : List Char :=
  "    \"".toList ++ name.toList ++ "\": ".toList ++ text

/-- One incident of the report; its key is not escaped. -/
def incidentText (i : Incident) : List Char :=
  "  \x7b\n".toList ++
    fieldText "key" ("\"".toList ++ keyText i.key ++ "\"".toList) ++ ",\n".toList ++
    fieldText "sequence" (formatUint i.record.sequenceNumber) ++ ",\n".toList ++
    fieldText "timestamp_ns" (formatUint i.record.timestampNs) ++ ",\n".toList ++
    fieldText "barrier_margin" (formatFloat i.record.barrierMargin) ++ ",\n".toList ++
    fieldText "commanded_torque" (formatFloat i.record.commandedJoint5Torque) ++ ",\n".toList ++
    fieldText "safe_torque" (formatFloat i.record.safeJoint5Torque) ++ ",\n".toList ++
    fieldText "active_mask" (formatUint i.record.activeMask) ++ "\n".toList ++
    "  \x7d".toList

/-- The loop of the reader; `first` says that nothing was printed yet. -/
def printIncidents : List (List UInt8 × List UInt8) → Bool → Nat → List Char
  | [], _, _ => []
  | (key, value) :: rest, first, count =>
    if count < 50 then
      if value.length = sizeofInterventionRecord then
        (if first then [] else ",\n".toList) ++
          incidentText ⟨key, InterventionRecord.ofBytes value⟩ ++
          printIncidents rest false (count + 1)
      else printIncidents rest first count
    else []

/-- All that the reader prints; there is no store when it could not be opened. -/
def incidentReport : Option ColumnFamily → List Char
  | none => "[]\n".toList
  | some cf => "[\n".toList ++ printIncidents (backwards cf) true 0 ++ "\n]\n".toList

/-- The incidents that the reader visits. -/
def visitedIncidents : Option ColumnFamily → List Incident
  | none => []
  | some cf => readIncidents cf

/-- The report is an array with one item for each incident that was visited. -/
def Readable (words : List (List Char × Value)) (store : Option ColumnFamily) : Prop :=
  ∃ items : List Value, items.length = (visitedIncidents store).length ∧
    Parses words (incidentReport store) (.array items)

section Loop

theorem printIncidents_later (entries : List (List UInt8 × List UInt8)) (count : Nat) :
    printIncidents entries false count =
      (scanIncidents entries count).flatMap fun i => ",\n".toList ++ incidentText i := by
  induction entries generalizing count with
  | nil => rfl
  | cons entry rest ih =>
    obtain ⟨key, value⟩ := entry
    rw [printIncidents, scanIncidents]
    split
    next =>
      split
      next => rw [List.flatMap_cons, ih, if_neg Bool.false_ne_true]
      next => exact ih count
    next => rfl

/-- What the loop prints: no comma in front of the first incident. -/
theorem printIncidents_first (entries : List (List UInt8 × List UInt8)) (count : Nat) :
    printIncidents entries true count =
      match scanIncidents entries count with
      | [] => []
      | i :: others =>
        incidentText i ++ others.flatMap fun i => ",\n".toList ++ incidentText i := by
  induction entries generalizing count with
  | nil => rfl
  | cons entry rest ih =>
    obtain ⟨key, value⟩ := entry
    rw [printIncidents, scanIncidents]
    split
    next =>
      split
      next => rw [printIncidents_later, if_pos rfl, List.nil_append]
      next => exact ih count
    next => rfl

end Loop

section Texts

/-- A line of an incident, from the end of the line before it: a member of its object. -/
def memberLine (name : String) (body : List Char) : List Char :=
  memberText "\n    ".toList name.toList [' '] body

def incidentLines (r : InterventionRecord) : List (List Char) :=
  [memberLine "sequence" (formatUint r.sequenceNumber),
    memberLine "timestamp_ns" (formatUint r.timestampNs),
    memberLine "barrier_margin" (formatFloat r.barrierMargin),
    memberLine "commanded_torque" (formatFloat r.commandedJoint5Torque),
    memberLine "safe_torque" (formatFloat r.safeJoint5Torque),
    memberLine "active_mask" (formatUint r.activeMask)]

def incidentObject (i : Incident) : List Char :=
  '\x7b' :: (listText (memberLine "key" ('"' :: (keyText i.key ++ ['"']))) (incidentLines i.record)
    "\n  ".toList ++ ['\x7d'])

/-- An incident of the report, from the end of the text before it. -/
def itemText (i : Incident) : List Char := "\n  ".toList ++ incidentObject i

theorem memberLine_eq (name : String) (body : List Char) :
    memberLine name body = "\n".toList ++ fieldText name body := by
  have indent : "\n    ".toList ++ ['"'] = "\n".toList ++ "    \"".toList := by
    simp only [String.reduceToList, List.cons_append, List.nil_append]
  have colon : "\": ".toList = ['"', ':', ' '] := by
    simp only [String.reduceToList]
  unfold memberLine memberText fieldText
  rw [List.append_cons, indent, colon]
  simp only [List.append_assoc, List.cons_append, List.nil_append]

theorem incidentText_eq (i : Incident) : incidentText i = "  ".toList ++ incidentObject i := by
  have opening : "  \x7b\n".toList = "  ".toList ++ '\x7b' :: "\n".toList := by
    simp only [String.reduceToList, List.cons_append, List.nil_append]
  have comma : ",\n".toList = ',' :: "\n".toList := by
    simp only [String.reduceToList]
  have closing : "\n".toList ++ "  \x7d".toList = "\n  ".toList ++ ['\x7d'] := by
    simp only [String.reduceToList, List.cons_append, List.nil_append]
  have quote : "\"".toList = ['"'] := by
    simp only [String.reduceToList]
  unfold incidentText incidentObject listText incidentLines
  rw [opening, comma, quote]
  simp only [memberLine_eq, List.flatMap_cons, List.flatMap_nil, List.cons_append, List.nil_append,
    List.append_assoc, closing]

theorem incidentReport_eq {cf : ColumnFamily} {i : Incident} {others : List Incident}
    (visited : readIncidents cf = i :: others) : incidentReport (some cf) =
      '[' :: (listText (itemText i) (others.map itemText) "\n".toList ++ ']' :: "\n".toList) := by
  have printed : printIncidents (backwards cf) true 0 = incidentText i ++
      others.flatMap fun i => ",\n".toList ++ incidentText i := by
    rw [readIncidents] at visited
    rw [printIncidents_first, visited]
  have comma : ∀ i, ",\n".toList ++ incidentText i = ',' :: itemText i := by
    intro i
    simp [incidentText_eq, itemText]
  have start : "[\n".toList ++ incidentText i = '[' :: itemText i := by
    simp [incidentText_eq, itemText]
  have finish : "\n]\n".toList = "\n".toList ++ ']' :: "\n".toList := by
    simp only [String.reduceToList, List.cons_append, List.nil_append]
  rw [incidentReport, printed, ← List.append_assoc, start, finish, listText, List.flatMap_map]
  simp only [comma, List.cons_append, List.append_assoc]

end Texts

section Lines

variable {words : List (List Char × Value)}

theorem spaces_newline : Spaces "\n".toList := by decide

theorem spaces_item : Spaces "\n  ".toList := by decide

theorem memberLine_opens (name : String) (body : List Char) :
    Opens '\x7d' (memberLine name body) :=
  ⟨"\n    ".toList, '"', _, rfl, by decide, by decide, by decide⟩

theorem memberLine_reads {name : String} {body : List Char} {fuel : ℕ} (plain : Plain name.toList)
    (starts : Starts body) (h : ∃ v, Reads (value words fuel) body v) :
    ∃ x, Reads (member (value words fuel)) (memberLine name body) x := by
  obtain ⟨v, reads⟩ := h
  exact ⟨_, member_reads (by decide) plain (by decide) starts reads⟩

theorem uintLine_reads (dialect : Dialect words) {name : String} (plain : Plain name.toList)
    {bits : ℕ} (w : BitVec bits) (fuel : ℕ) :
    ∃ x, Reads (member (value words (fuel + 1))) (memberLine name (formatUint w)) x := by
  obtain ⟨starts, reads⟩ := formatUint_reads dialect w fuel
  exact memberLine_reads plain starts reads

theorem floatLine_reads (dialect : Dialect words) {name : String} (plain : Plain name.toList)
    {w : BitVec 32} (finite : Finite w) (fuel : ℕ) :
    ∃ x, Reads (member (value words (fuel + 1))) (memberLine name (formatFloat w)) x := by
  obtain ⟨starts, reads⟩ := formatFloat_reads dialect finite fuel
  exact memberLine_reads plain starts reads

theorem floatLine_rejects (dialect : Dialect words) {name : String} (plain : Plain name.toList)
    {w : BitVec 32} (nonFinite : ¬Finite w) (fuel : ℕ) :
    Rejects (member (value words fuel)) (memberLine name (formatFloat w)) := by
  have text := formatFloat_nonFinite nonFinite
  have starts : Starts (formatFloat w) := by
    simp only [nonFiniteTexts, List.mem_cons, List.not_mem_nil, or_false] at text
    rcases text with text | text | text | text <;> rw [text] <;> exact ⟨_, _, rfl, by decide⟩
  exact member_rejects (by decide) plain (by decide) starts (value_nonFinite dialect text)

/-- A key of the recorder needs no escapes. -/
theorem keyText_plain (t : BitVec 64) : Plain (keyText (interventionKey t)) := by
  have label : Plain (keyText (asciiBytes "INTERVENE-".toList)) := by
    decide
  have digit : ∀ d < 10, Plain (keyText (asciiBytes [Nat.digitChar d])) := by
    decide
  have bound : t.toNat < 10 ^ (19 + 1) := t.isLt.trans (by decide)
  rw [interventionKey, leftpad_toDigits bound, asciiBytes, List.map_append, keyText,
    List.map_append]
  intro c member
  rcases List.mem_append.mp member with inside | inside
  · exact label c inside
  · rw [List.map_map] at inside
    obtain ⟨x, among, rfl⟩ := List.mem_map.mp inside
    obtain ⟨d, small, rfl⟩ := mem_digits _ among
    exact digit d small _ List.mem_cons_self

theorem keyLine_reads (t : BitVec 64) (fuel : ℕ) :
    ∃ x, Reads (member (value words (fuel + 1)))
      (memberLine "key" ('"' :: (keyText (interventionKey t) ++ ['"']))) x :=
  memberLine_reads (by decide) ⟨'"', _, rfl, by decide⟩ ⟨_, value_string (keyText_plain t)⟩

end Lines

section Objects

/-- The floats of an incident are numbers; its other fields always are. -/
structure InterventionRecord.Printable (r : InterventionRecord) : Prop where
  barrierMargin : Finite r.barrierMargin
  commandedJoint5Torque : Finite r.commandedJoint5Torque
  safeJoint5Torque : Finite r.safeJoint5Torque

variable {words : List (List Char × Value)} {r : InterventionRecord}

theorem floatLine_cases (dialect : Dialect words) {name : String} (plain : Plain name.toList)
    {w : BitVec 32} (field : r.Printable → Finite w) (fuel : ℕ) :
    (∃ x, Reads (member (value words (fuel + 1))) (memberLine name (formatFloat w)) x) ∨
      (Rejects (member (value words (fuel + 1))) (memberLine name (formatFloat w)) ∧
        ¬r.Printable) := by
  by_cases finite : Finite w
  · exact Or.inl (floatLine_reads dialect plain finite fuel)
  · exact Or.inr ⟨floatLine_rejects dialect plain finite (fuel + 1), fun h => finite (field h)⟩

/-- Each line of an incident can be read, or it has a float that cannot be printed. -/
theorem incidentLines_cases (dialect : Dialect words) (fuel : ℕ) :
    ∀ text ∈ memberLine "key" ('"' :: (keyText (interventionKey r.timestampNs) ++ ['"'])) ::
        incidentLines r,
      (∃ x, Reads (member (value words (fuel + 1))) text x) ∨
        (Rejects (member (value words (fuel + 1))) text ∧ ¬r.Printable) := by
  intro text member
  simp only [incidentLines, List.mem_cons, List.not_mem_nil, or_false] at member
  rcases member with rfl | rfl | rfl | rfl | rfl | rfl | rfl
  · exact Or.inl (keyLine_reads r.timestampNs fuel)
  · exact Or.inl (uintLine_reads dialect (by decide) _ fuel)
  · exact Or.inl (uintLine_reads dialect (by decide) _ fuel)
  · exact floatLine_cases dialect (by decide) (fun h => h.barrierMargin) fuel
  · exact floatLine_cases dialect (by decide) (fun h => h.commandedJoint5Torque) fuel
  · exact floatLine_cases dialect (by decide) (fun h => h.safeJoint5Torque) fuel
  · exact Or.inl (uintLine_reads dialect (by decide) _ fuel)

theorem incidentObject_reads (dialect : Dialect words) (printable : r.Printable) (fuel : ℕ) :
    ∃ v, Reads (value words (fuel + 8)) (incidentObject r.incident) v := by
  refine object_reads (memberLine_opens _ _) spaces_item (fun text member => ?_) ?_
  · rcases incidentLines_cases dialect (fuel + 6) text member with reads | ⟨_, broken⟩
    · exact reads
    · exact absurd printable broken
  · simp only [InterventionRecord.incident, incidentLines, List.length_cons, List.length_nil]
    omega

theorem incidentObject_rejects (dialect : Dialect words) (broken : ¬r.Printable) (fuel : ℕ) :
    Rejects (value words (fuel + 2)) (incidentObject r.incident) := by
  have spoils : ∀ (name : String) (w : BitVec 32), Plain name.toList → ¬Finite w →
      memberLine name (formatFloat w) ∈ incidentLines r →
      Rejects (value words (fuel + 2)) (incidentObject r.incident) := by
    intro name w plain nonFinite member
    exact object_rejects (memberLine_opens _ _)
      (fun text member => (incidentLines_cases dialect fuel text member).imp_right And.left)
      ⟨_, List.mem_cons_of_mem _ member, floatLine_rejects dialect plain nonFinite (fuel + 1)⟩
  by_cases margin : Finite r.barrierMargin
  · by_cases commanded : Finite r.commandedJoint5Torque
    · have safe : ¬Finite r.safeJoint5Torque := fun safe => broken ⟨margin, commanded, safe⟩
      exact spoils "safe_torque" _ (by decide) safe (by simp [incidentLines])
    · exact spoils "commanded_torque" _ (by decide) commanded (by simp [incidentLines])
  · exact spoils "barrier_margin" _ (by decide) margin (by simp [incidentLines])

end Objects

section Reports

variable {words : List (List Char × Value)} {cf : ColumnFamily}

theorem readable_unopened : Readable words none := by
  have nothing : Spaces [] := by decide
  exact ⟨[], rfl, array_parses_empty nothing spaces_newline⟩

theorem incidentObject_starts (i : Incident) : Starts (incidentObject i) :=
  ⟨'\x7b', _, rfl, by decide⟩

theorem itemText_reads (dialect : Dialect words) {r : InterventionRecord} (h : r.Printable)
    {fuel : ℕ} (enough : 8 ≤ fuel) :
    ∃ v, Reads (element (value words fuel)) (itemText r.incident) v := by
  obtain ⟨depth, rfl⟩ := Nat.exists_eq_add_of_le' enough
  obtain ⟨v, reads⟩ := incidentObject_reads dialect h depth
  exact ⟨v, element_reads spaces_item (incidentObject_starts _) reads⟩

theorem itemText_rejects (dialect : Dialect words) {r : InterventionRecord} (h : ¬r.Printable)
    {fuel : ℕ} (enough : 8 ≤ fuel) :
    Rejects (element (value words fuel)) (itemText r.incident) := by
  obtain ⟨depth, rfl⟩ := Nat.exists_eq_add_of_le' enough
  exact element_rejects spaces_item (incidentObject_starts _)
    (incidentObject_rejects dialect h (depth + 6))

theorem itemText_opens (i : Incident) : Opens ']' (itemText i) :=
  ⟨"\n  ".toList, '\x7b', _, rfl, spaces_item, by decide, by decide⟩

/-- What the reader visits was put there by the recorder. -/
def VisitsRecords (cf : ColumnFamily) : Prop :=
  ∀ i ∈ readIncidents cf, ∃ r : InterventionRecord, i = r.incident

theorem report_readable (dialect : Dialect words) (logged : VisitsRecords cf)
    (all : ∀ i ∈ readIncidents cf, i.record.Printable) : Readable words (some cf) := by
  cases visited : readIncidents cf with
  | nil =>
    have empty : incidentReport (some cf) = '[' :: ("\n\n".toList ++ ']' :: "\n".toList) := by
      rw [readIncidents] at visited
      rw [incidentReport, printIncidents_first, visited]
      simp
    refine ⟨[], by rw [visitedIncidents, visited]; rfl, ?_⟩
    rw [empty]
    exact array_parses_empty (by decide) spaces_newline
  | cons i others =>
    have items : ∀ text ∈ itemText i :: others.map itemText,
        ∃ v, Reads (element (value words (others.length + 8))) text v := by
      intro text member
      rw [← List.map_cons (f := itemText), ← visited] at member
      obtain ⟨j, inside, rfl⟩ := List.mem_map.mp member
      obtain ⟨r, rfl⟩ := logged j inside
      exact itemText_reads dialect (all _ inside) (Nat.le_add_left 8 _)
    obtain ⟨vs, length, parsed⟩ := array_parses (itemText_opens i) spaces_newline spaces_newline
      items (by rw [List.length_map]; omega)
    refine ⟨vs, ?_, ?_⟩
    · rw [length, visitedIncidents, visited, List.length_cons, List.length_map]
    · rw [incidentReport_eq visited]
      exact parsed

theorem report_unparsable (dialect : Dialect words) (logged : VisitsRecords cf) {i : Incident}
    (broken : i ∈ readIncidents cf) (nonFinite : ¬i.record.Printable) (v : Value) :
    ¬Parses words (incidentReport (some cf)) v := by
  cases visited : readIncidents cf with
  | nil =>
    rw [visited] at broken
    cases broken
  | cons first others =>
    rw [incidentReport_eq visited]
    have items : ∀ fuel, 8 ≤ fuel → ∀ text ∈ itemText first :: others.map itemText,
        (∃ x, Reads (element (value words fuel)) text x) ∨
          Rejects (element (value words fuel)) text := by
      intro fuel enough text member
      rw [← List.map_cons (f := itemText), ← visited] at member
      obtain ⟨j, inside, rfl⟩ := List.mem_map.mp member
      obtain ⟨r, rfl⟩ := logged j inside
      by_cases printable : r.Printable
      · exact Or.inl (itemText_reads dialect printable enough)
      · exact Or.inr (itemText_rejects dialect printable enough)
    refine array_unparsable (itemText_opens first) items (fun fuel enough => ?_) v
    rw [← List.map_cons (f := itemText), ← visited]
    obtain ⟨r, rfl⟩ := logged i broken
    exact ⟨_, List.mem_map_of_mem broken, itemText_rejects dialect nonFinite enough⟩

/-- A store of logged incidents is reported as an array if and only if the visited
ones are printable; else nothing at all is parsed. -/
theorem report_parses_iff (dialect : Dialect words) (logged : VisitsRecords cf) :
    (Readable words (some cf) ↔ ∀ i ∈ readIncidents cf, i.record.Printable) ∧
      ((∃ v, Parses words (incidentReport (some cf)) v) ↔
        ∀ i ∈ readIncidents cf, i.record.Printable) := by
  have parsed : ∀ v, Parses words (incidentReport (some cf)) v →
      ∀ i ∈ readIncidents cf, i.record.Printable := by
    intro v parsed i visited
    by_contra nonFinite
    exact report_unparsable dialect logged visited nonFinite v parsed
  refine ⟨⟨fun ⟨items, _, array⟩ => parsed _ array, report_readable dialect logged⟩,
    fun ⟨v, read⟩ => parsed v read, fun all => ?_⟩
  obtain ⟨items, _, array⟩ := report_readable dialect logged all
  exact ⟨_, array⟩

end Reports

end NeuroKinetic
