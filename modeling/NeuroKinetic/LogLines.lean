import Mathlib.Data.List.ReduceOption
import NeuroKinetic.FlightRecorder
import NeuroKinetic.Library.JsonLength
import NeuroKinetic.Library.OutputStream

open Json OutputStream

namespace NeuroKinetic

structure LogEvent where
  timestampNs : BitVec 64
  tag : Vector UInt8 32
  message : Vector UInt8 160

/-- The characters up to the NUL; without one the stream reads past the array. -/
def cString : List UInt8 → Option (List UInt8)
  | [] => none
  | b :: bytes => if b = 0 then some [] else (cString bytes).map (b :: ·)

/-- What the loop of a running logger prints for an event. -/
def printWhileRunning (event : LogEvent) : Option (List UInt8) := do
  let tag ← cString event.tag.toList
  let message ← cString event.message.toList
  return asciiBytes "\x7b\"timestamp_ns\":".toList ++
    asciiBytes (formatUint event.timestampNs) ++ asciiBytes ",\"tag\":\"".toList ++ tag ++
    asciiBytes "\",\"message\":\"".toList ++ message ++ asciiBytes "\"\x7d\n".toList

/-- What the loop after the stop prints for an event. -/
def printRemaining (event : LogEvent) : Option (List UInt8) := do
  let tag ← cString event.tag.toList
  let message ← cString event.message.toList
  return asciiBytes "\x7b\"timestamp_ns\":".toList ++
    asciiBytes (formatUint event.timestampNs) ++ asciiBytes ",\"tag\":\"".toList ++ tag ++
    asciiBytes "\",\"message\":\"".toList ++ message ++ asciiBytes "\"\x7d\n".toList

/-- What a logger prints: a turn of the first loop may find the queue empty, the
second one ends when it is. -/
def drain (turns : List (Option LogEvent)) (remaining : List LogEvent) : Option (List UInt8) := do
  let running ← turns.mapM fun popped => popped.elim (some []) printWhileRunning
  let stopped ← remaining.mapM printRemaining
  return running.flatten ++ stopped.flatten

def AsciiBytes (bytes : List UInt8) : Prop := ∀ b ∈ bytes, b.toNat < 128

instance decidableAsciiBytes (bytes : List UInt8) : Decidable (AsciiBytes bytes) :=
  List.decidableBAll _ bytes

def asciiText (bytes : List UInt8) : List Char := bytes.map fun b => Char.ofNat b.toNat

/-- What a reader of an object gets under a name; of several members it takes the last. -/
def fieldOf (name : String) (members : List (List ℕ × Value)) : Option Value :=
  (members.reverse.find? fun m => m.1 = name.toList.map Char.toNat).map Prod.snd

/-- One line of ASCII text that is an object with the event's own values. -/
def DecodesTo (line : List UInt8) (timestampNs : ℕ) (tag message : List UInt8) : Prop :=
  ∃ body, line = body ++ [10] ∧ 10 ∉ body ∧ AsciiBytes body ∧
    ∃ members, Parses standardWords (asciiText body) (.object members) ∧
      fieldOf "timestamp_ns" members = some (.number false timestampNs 0) ∧
      fieldOf "tag" members = some (.string (tag.map UInt8.toNat)) ∧
      fieldOf "message" members = some (.string (message.map UInt8.toNat))

section Objects

def quoted (text : List Char) : List Char := '"' :: (text ++ ['"'])

/-- The members after the timestamp. -/
def logStrings (tag message : List Char) : List Char :=
  memberText [] "tag".toList [] (quoted tag) ++
    ',' :: (memberText [] "message".toList [] (quoted message) ++ ['\x7d'])

def logMembers (stamp tag message : List Char) : List Char :=
  memberText [] "timestamp_ns".toList [] stamp ++ ',' :: logStrings tag message

variable {stamp tag message : List Char}

theorem length_logStrings (tag message : List Char) :
    (logStrings tag message).length = 22 + tag.length + message.length := by
  simp [logStrings, memberText, quoted]
  omega

theorem logMembers_value (fuel : ℕ) : value standardWords (fuel + 1)
    ('\x7b' :: logMembers stamp tag message) =
      (commaList (member (value standardWords fuel)) '\x7d' fuel (logMembers stamp tag message)).map
        fun (ms, cs) => (.object ms, cs) := by
  have opens : Opens '\x7d' (logMembers stamp tag message) :=
    ⟨[], '"', _, rfl, by decide, by decide, by decide⟩
  have object : value standardWords (fuel + 1)
      ('\x7b' :: (listText (logMembers stamp tag message) [] [] ++ [])) = _ :=
    value_object opens []
  simpa [listText] using object

theorem stampMember_reads (w : BitVec 64) (fuel : ℕ) :
    Reads (member (value standardWords (fuel + 1)))
      (memberText [] "timestamp_ns".toList [] (formatUint w))
      ("timestamp_ns".toList.map Char.toNat, .number false w.toNat 0) := by
  obtain ⟨starts, reads⟩ := formatUint_value (Or.inl rfl) w fuel
  exact member_reads (by decide) (by decide) (by decide) starts reads

theorem stringMember_reads (name : String) (plainName : Plain name.toList) {text : List Char}
    (plain : Plain text) (fuel : ℕ) :
    Reads (member (value standardWords (fuel + 1))) (memberText [] name.toList [] (quoted text))
      (name.toList.map Char.toNat, .string (text.map Char.toNat)) :=
  member_reads (by decide) plainName (by decide) ⟨'"', _, rfl, by decide⟩ (value_string plain)

theorem logMembers_parses (w : BitVec 64) (plainTag : Plain tag) (plainMessage : Plain message) :
    Parses standardWords ('\x7b' :: logMembers (formatUint w) tag message)
      (.object [("timestamp_ns".toList.map Char.toNat, .number false w.toNat 0),
        ("tag".toList.map Char.toNat, .string (tag.map Char.toNat)),
        ("message".toList.map Char.toNat, .string (message.map Char.toNat))]) := by
  refine ⟨4, ?_⟩
  have nothing : Spaces [] := by decide
  have last := commaList_last (Or.inr rfl) nothing
    (stringMember_reads "message" (by decide) plainMessage 2) 0 []
  rw [parseWith, skipSpace_cons (by decide), logMembers_value, logMembers,
    commaList_step (stampMember_reads w 2), logStrings,
    commaList_step (stringMember_reads "tag" (by decide) plainTag 2), ← List.nil_append ['\x7d'],
    last]
  rfl

/-- An object read from a line has the timestamp first; the others come from the strings. -/
theorem logMembers_read {w : BitVec 64} {members : List (List ℕ × Value)}
    (h : Parses standardWords ('\x7b' :: logMembers (formatUint w) tag message)
      (.object members)) :
    ∃ others : List (List ℕ × Value),
      members = ("timestamp_ns".toList.map Char.toNat, .number false w.toNat 0) :: others ∧
        listSize memberSize others ≤ 22 + tag.length + message.length := by
  obtain ⟨fuel, parsed⟩ := h
  rw [parseWith, skipSpace_cons (by decide)] at parsed
  cases fuel with
  | zero => cases parsed
  | succ fuel =>
    rw [logMembers_value] at parsed
    cases fuel with
    | zero => cases parsed
    | succ fuel =>
      rw [logMembers, commaList_step (stampMember_reads w fuel)] at parsed
      cases found : commaList (member (value standardWords (fuel + 1))) '\x7d' fuel
          (logStrings tag message) with
      | none =>
        rw [found] at parsed
        cases parsed
      | some x =>
        obtain ⟨others, rest⟩ := x
        have words : ∀ word ∈ standardWords, word.2.size = 0 := by
          intro word member
          simp only [standardWords, List.mem_cons, List.not_mem_nil, or_false] at member
          rcases member with rfl | rfl | rfl <;> rfl
        have taken := commaList_takes (member_takes (value_takes words (fuel + 1))) '\x7d' fuel
          _ others rest found
        rw [length_logStrings] at taken
        simp only [found, Option.map_some] at parsed
        split at parsed
        next =>
          cases parsed
          exact ⟨others, rfl, by omega⟩
        next => cases parsed

theorem mem_of_fieldOf {name : String} {members : List (List ℕ × Value)} {v : Value}
    (h : fieldOf name members = some v) : (name.toList.map Char.toNat, v) ∈ members := by
  obtain ⟨m, found, rfl⟩ := Option.map_eq_some_iff.mp h
  have same : m.1 = name.toList.map Char.toNat := by
    simpa using List.find?_some found
  rw [← same]
  exact List.mem_reverse.mp (List.mem_of_find?_eq_some found)

/-- A line is no longer than its own values are when nothing in them needs an escape. -/
theorem plain_of_logMembers {w : BitVec 64} {members : List (List ℕ × Value)}
    {tagUnits messageUnits : List ℕ}
    (h : Parses standardWords ('\x7b' :: logMembers (formatUint w) tag message) (.object members))
    (hasTag : fieldOf "tag" members = some (.string tagUnits))
    (hasMessage : fieldOf "message" members = some (.string messageUnits))
    (tagLength : tagUnits.length = tag.length)
    (messageLength : messageUnits.length = message.length) :
    ∀ u ∈ tagUnits ++ messageUnits, ¬NeedsEscape u := by
  obtain ⟨others, rfl, size⟩ := logMembers_read h
  have later : ∀ {name : String} {v : Value},
      name.toList.map Char.toNat ≠ "timestamp_ns".toList.map Char.toNat →
      fieldOf name ((("timestamp_ns".toList.map Char.toNat), .number false w.toNat 0) :: others) =
        some v → (name.toList.map Char.toNat, v) ∈ others := by
    intro name v other found
    rcases List.mem_cons.mp (mem_of_fieldOf found) with same | later
    · exact absurd (congrArg Prod.fst same) other
    · exact later
  have names : "tag".toList.map Char.toNat ≠ "message".toList.map Char.toNat := by decide
  have both := add_le_listSize memberSize (later (by decide) hasTag) (later (by decide) hasMessage)
    fun same => names (congrArg Prod.fst same)
  have tagName : textSize ("tag".toList.map Char.toNat) = 3 := by decide
  have messageName : textSize ("message".toList.map Char.toNat) = 7 := by decide
  have tagLeast := length_le_textSize tagUnits
  have messageLeast := length_le_textSize messageUnits
  simp only [memberSize, Value.size, tagName, messageName] at both
  intro u member
  rcases List.mem_append.mp member with inTag | inMessage
  · exact plain_of_textSize_le (by omega) u inTag
  · exact plain_of_textSize_le (by omega) u inMessage

end Objects

section Bytes

theorem toNat_toUInt8 {c : Char} (small : c.toNat < 128) : c.toUInt8.toNat = c.toNat := by
  rw [Char.toUInt8, UInt32.toNat_toUInt8]
  exact Nat.mod_eq_of_lt (show c.toNat < 2 ^ 8 by omega)

theorem asciiText_asciiBytes {text : List Char} (h : ∀ c ∈ text, c.toNat < 128) :
    asciiText (asciiBytes text) = text := by
  rw [asciiText, asciiBytes, List.map_map]
  refine (List.map_congr_left fun c member => ?_).trans (List.map_id text)
  show Char.ofNat c.toUInt8.toNat = c
  rw [toNat_toUInt8 (h c member), Char.ofNat_toNat]

theorem toNat_asciiText (bytes : List UInt8) :
    (asciiText bytes).map Char.toNat = bytes.map UInt8.toNat := by
  rw [asciiText, List.map_map]
  refine List.map_congr_left fun b _ => ?_
  have small : b.toNat < 256 := b.toNat_lt
  have valid : b.toNat.isValidChar := Or.inl (by omega)
  show (Char.ofNat b.toNat).toNat = b.toNat
  rw [Char.ofNat, dif_pos valid]
  rfl

theorem plain_asciiText {bytes : List UInt8} (h : ∀ b ∈ bytes, ¬NeedsEscape b.toNat) :
    Plain (asciiText bytes) := by
  intro c member
  have mapped : c.toNat ∈ bytes.map UInt8.toNat := by
    rw [← toNat_asciiText]
    exact List.mem_map_of_mem member
  obtain ⟨b, inside, same⟩ := List.mem_map.mp mapped
  have stands := h b inside
  rw [same] at stands
  refine ⟨?_, ?_, ?_⟩
  · rintro rfl
    exact stands (Or.inr (Or.inl rfl))
  · rintro rfl
    exact stands (Or.inr (Or.inr rfl))
  · by_contra control
    exact stands (Or.inl (Nat.lt_of_not_le control))

/-- What a digit is not: no newline, and nothing beyond the ASCII characters. -/
theorem mem_digitBytes {w : BitVec 64} {b : UInt8} (member : b ∈ asciiBytes (formatUint w)) :
    b ≠ 10 ∧ b.toNat < 128 := by
  obtain ⟨c, inside, rfl⟩ := List.mem_map.mp member
  obtain ⟨low, high⟩ := Char.isDigit_iff_toNat.mp ((digits_toDigits w.toNat).2 c inside)
  have low : 48 ≤ c.toNat := low
  have high : c.toNat ≤ 57 := high
  have same := toNat_toUInt8 (show c.toNat < 128 by omega)
  refine ⟨fun newline => ?_, by omega⟩
  rw [newline] at same
  have : (10 : UInt8).toNat = 10 := rfl
  omega

/-- A line without its newline. -/
def logBody (w : BitVec 64) (tag message : List UInt8) : List UInt8 :=
  asciiBytes "\x7b\"timestamp_ns\":".toList ++ asciiBytes (formatUint w) ++
    asciiBytes ",\"tag\":\"".toList ++ tag ++ asciiBytes "\",\"message\":\"".toList ++ message ++
    asciiBytes "\"\x7d".toList

theorem asciiText_append (xs ys : List UInt8) :
    asciiText (xs ++ ys) = asciiText xs ++ asciiText ys :=
  List.map_append

variable {w : BitVec 64} {tag message : List UInt8}

theorem asciiText_logBody : asciiText (logBody w tag message) =
    '\x7b' :: logMembers (formatUint w) (asciiText tag) (asciiText message) := by
  have digits : asciiText (asciiBytes (formatUint w)) = formatUint w := by
    refine asciiText_asciiBytes fun c member => ?_
    have high : c.toNat ≤ 57 :=
      (Char.isDigit_iff_toNat.mp ((digits_toDigits w.toNat).2 c member)).2
    omega
  have literal : ∀ text : List Char, text.all (fun c => decide (c.toNat < 128)) = true →
      asciiText (asciiBytes text) = text := fun text all =>
    asciiText_asciiBytes fun c member => of_decide_eq_true (List.all_eq_true.mp all c member)
  unfold logBody
  simp only [asciiText_append, digits]
  rw [literal _ (by decide), literal _ (by decide), literal _ (by decide), literal _ (by decide)]
  simp only [logMembers, logStrings, memberText, quoted, String.reduceToList, List.cons_append,
    List.nil_append, List.append_assoc]

theorem mem_logBody {b : UInt8} (member : b ∈ logBody w tag message) :
    (b ≠ 10 ∧ b.toNat < 128) ∨ b ∈ tag ∨ b ∈ message := by
  have literal : ∀ text : List Char,
      (asciiBytes text).all (fun c => decide (c ≠ 10 ∧ c.toNat < 128)) = true →
        b ∈ asciiBytes text → b ≠ 10 ∧ b.toNat < 128 := fun text all inside =>
    of_decide_eq_true (List.all_eq_true.mp all b inside)
  unfold logBody at member
  simp only [List.mem_append] at member
  rcases member with (((((head | stamp) | name) | inTag) | name) | inMessage) | last
  · exact Or.inl (literal _ (by decide) head)
  · exact Or.inl (mem_digitBytes stamp)
  · exact Or.inl (literal _ (by decide) name)
  · exact Or.inr (Or.inl inTag)
  · exact Or.inl (literal _ (by decide) name)
  · exact Or.inr (Or.inr inMessage)
  · exact Or.inl (literal _ (by decide) last)

def Unescaped (tag message : List UInt8) : Prop :=
  ∀ b ∈ tag ++ message, ¬NeedsEscape b.toNat

instance decidableUnescaped (tag message : List UInt8) : Decidable (Unescaped tag message) :=
  List.decidableBAll _ (tag ++ message)

theorem decodes_of_unescaped (ascii : AsciiBytes (tag ++ message))
    (h : Unescaped tag message) : DecodesTo (logBody w tag message ++ [10]) w.toNat tag message := by
  have inTag : ∀ b ∈ tag, ¬NeedsEscape b.toNat := fun b member =>
    h b (List.mem_append_left _ member)
  have inMessage : ∀ b ∈ message, ¬NeedsEscape b.toNat := fun b member =>
    h b (List.mem_append_right _ member)
  have newline : ¬¬NeedsEscape (10 : UInt8).toNat := not_not.mpr (Or.inl (by decide))
  refine ⟨_, rfl, fun member => ?_, fun b member => ?_, ?_⟩
  · rcases mem_logBody member with ⟨other, _⟩ | inside | inside
    · exact other rfl
    · exact newline (inTag 10 inside)
    · exact newline (inMessage 10 inside)
  · rcases mem_logBody member with ⟨_, small⟩ | inside | inside
    · exact small
    · exact ascii b (List.mem_append_left _ inside)
    · exact ascii b (List.mem_append_right _ inside)
  · have parses := logMembers_parses w (plain_asciiText inTag) (plain_asciiText inMessage)
    rw [toNat_asciiText, toNat_asciiText] at parses
    rw [asciiText_logBody]
    exact ⟨_, parses, rfl, rfl, rfl⟩

theorem unescaped_of_decodes (h : DecodesTo (logBody w tag message ++ [10]) w.toNat tag message) :
    Unescaped tag message := by
  obtain ⟨body, same, _, _, members, parses, _, hasTag, hasMessage⟩ := h
  obtain rfl := List.append_cancel_right same
  rw [asciiText_logBody] at parses
  have plain := plain_of_logMembers parses hasTag hasMessage (by simp [asciiText])
    (by simp [asciiText])
  intro b member
  refine plain b.toNat ?_
  rw [← List.map_append]
  exact List.mem_map_of_mem member

end Bytes

section Drain

theorem printWhileRunning_eq {event : LogEvent} {tag message : List UInt8}
    (hasTag : cString event.tag.toList = some tag)
    (hasMessage : cString event.message.toList = some message) :
    printWhileRunning event = some (logBody event.timestampNs tag message ++ [10]) := by
  have closing : asciiBytes "\"\x7d\n".toList = asciiBytes "\"\x7d".toList ++ [10] := by
    decide
  unfold printWhileRunning logBody
  rw [hasTag, hasMessage, closing]
  simp only [Option.bind_eq_bind, Option.bind_some, Option.pure_def, List.append_assoc]

/-- Both loops print an event alike. -/
theorem printRemaining_eq (event : LogEvent) : printRemaining event = printWhileRunning event :=
  rfl

/-- An array holds a string of ASCII characters. -/
def AsciiString (bytes : List UInt8) : Prop :=
  ∃ text, cString bytes = some text ∧ AsciiBytes text

structure LogEvent.Ascii (event : LogEvent) : Prop where
  tag : AsciiString event.tag.toList
  message : AsciiString event.message.toList

def LogEvent.tagText (event : LogEvent) : List UInt8 := (cString event.tag.toList).getD []

def LogEvent.messageText (event : LogEvent) : List UInt8 := (cString event.message.toList).getD []

/-- The line of an event, its newline included. -/
def LogEvent.line (event : LogEvent) : List UInt8 :=
  logBody event.timestampNs event.tagText event.messageText ++ [10]

theorem LogEvent.Ascii.printed {event : LogEvent} (ascii : event.Ascii) :
    printWhileRunning event = some event.line := by
  obtain ⟨⟨tag, hasTag, _⟩, ⟨message, hasMessage, _⟩⟩ := ascii
  rw [printWhileRunning_eq hasTag hasMessage, LogEvent.line, LogEvent.tagText,
    LogEvent.messageText, hasTag, hasMessage]
  rfl

theorem LogEvent.Ascii.decodes_iff {event : LogEvent} (ascii : event.Ascii) :
    DecodesTo event.line event.timestampNs.toNat event.tagText event.messageText ↔
      Unescaped event.tagText event.messageText := by
  obtain ⟨⟨tag, hasTag, asciiTag⟩, ⟨message, hasMessage, asciiMessage⟩⟩ := ascii
  have tagText : event.tagText = tag := by rw [LogEvent.tagText, hasTag, Option.getD_some]
  have messageText : event.messageText = message := by
    rw [LogEvent.messageText, hasMessage, Option.getD_some]
  rw [LogEvent.line, tagText, messageText]
  refine ⟨unescaped_of_decodes, decodes_of_unescaped fun b member => ?_⟩
  rcases List.mem_append.mp member with inTag | inMessage
  · exact asciiTag b inTag
  · exact asciiMessage b inMessage

theorem mapM_turns {turns : List (Option LogEvent)}
    (ascii : ∀ event ∈ turns.reduceOption, event.Ascii) :
    ∃ pieces : List (List UInt8),
      turns.mapM (fun popped => popped.elim (some []) printWhileRunning) = some pieces ∧
        pieces.flatten = turns.reduceOption.flatMap LogEvent.line := by
  induction turns with
  | nil => exact ⟨[], rfl, rfl⟩
  | cons popped turns ih =>
    cases popped with
    | none =>
      obtain ⟨pieces, printed, same⟩ := ih ascii
      refine ⟨[] :: pieces, ?_, same⟩
      rw [List.mapM_cons, printed]
      rfl
    | some event =>
      rw [List.reduceOption_cons_of_some] at ascii ⊢
      obtain ⟨pieces, printed, same⟩ := ih fun e member => ascii e (List.mem_cons_of_mem _ member)
      refine ⟨event.line :: pieces, ?_, ?_⟩
      · have first : printWhileRunning event = some event.line :=
          (ascii event List.mem_cons_self).printed
        rw [List.mapM_cons, printed, Option.elim_some, first]
        rfl
      · rw [List.flatten_cons, same, List.flatMap_cons]

/-- The second loop prints as the first one does when it always finds an event. -/
theorem mapM_remaining (remaining : List LogEvent) :
    remaining.mapM printRemaining =
      (remaining.map some).mapM fun popped => popped.elim (some []) printWhileRunning := by
  rw [List.mapM_map]
  rfl

theorem drain_eq {turns : List (Option LogEvent)} {remaining : List LogEvent}
    (ascii : ∀ event ∈ turns.reduceOption ++ remaining, event.Ascii) :
    drain turns remaining = some ((turns.reduceOption ++ remaining).flatMap LogEvent.line) := by
  have all : (remaining.map some).reduceOption = remaining := by
    simp [List.reduceOption]
  obtain ⟨running, printed, first⟩ := mapM_turns fun event member =>
    ascii event (List.mem_append_left _ member)
  have asciiLater : ∀ event ∈ (remaining.map some).reduceOption, event.Ascii :=
    fun event member => ascii event (List.mem_append_right _ (all ▸ member))
  obtain ⟨stopped, printedLater, later⟩ := mapM_turns asciiLater
  rw [drain, mapM_remaining, printed, printedLater, List.flatMap_append, ← first]
  rw [all] at later
  rw [← later]
  rfl

end Drain

/-- Every event of a run is printed as one line, in either loop, and the line decodes
to the event exactly when nothing in its strings needs an escape. -/
theorem log_lines_decode_iff (turns : List (Option LogEvent)) (remaining : List LogEvent)
    (ascii : ∀ event ∈ turns.reduceOption ++ remaining, event.Ascii) :
    drain turns remaining = some ((turns.reduceOption ++ remaining).flatMap LogEvent.line) ∧
      ∀ event ∈ turns.reduceOption ++ remaining,
        printWhileRunning event = some event.line ∧ printRemaining event = some event.line ∧
          (DecodesTo event.line event.timestampNs.toNat event.tagText event.messageText ↔
            Unescaped event.tagText event.messageText) := by
  refine ⟨drain_eq ascii, fun event member => ?_⟩
  have printed := (ascii event member).printed
  exact ⟨printed, (printRemaining_eq event).trans printed, (ascii event member).decodes_iff⟩

section Output

/-- The output of a run has one line for each event, and it decodes to the event. -/
def DecodesToEvents (output : List UInt8) (events : List LogEvent) : Prop :=
  ∃ lines, output = lines.flatten ∧ List.Forall₂
    (fun line event => DecodesTo line event.timestampNs.toNat event.tagText event.messageText)
    lines events

def OneLine (line : List UInt8) : Prop := ∃ body, line = body ++ [10] ∧ 10 ∉ body

theorem OneLine.count {line : List UInt8} (h : OneLine line) : line.count 10 = 1 := by
  obtain ⟨body, rfl, none⟩ := h
  rw [List.count_append, List.count_eq_zero_of_not_mem none]
  rfl

/-- Lines are told apart by their newlines. -/
theorem oneLine_flatten {xs ys : List (List UInt8)} (hx : ∀ line ∈ xs, OneLine line)
    (hy : ∀ line ∈ ys, OneLine line) (same : xs.flatten = ys.flatten) : xs = ys := by
  induction xs generalizing ys with
  | nil =>
    cases ys with
    | nil => rfl
    | cons y ys =>
      obtain ⟨body, rfl, _⟩ := hy y List.mem_cons_self
      simp at same
  | cons x xs ih =>
    obtain ⟨body, rfl, none⟩ := hx x List.mem_cons_self
    cases ys with
    | nil => simp at same
    | cons y ys =>
      obtain ⟨body', rfl, none'⟩ := hy y List.mem_cons_self
      have split : ∀ (body rest : List UInt8), 10 ∉ body →
          (body ++ [10] ++ rest).takeWhile (· ≠ 10) = body ∧
            (body ++ [10] ++ rest).dropWhile (· ≠ 10) = 10 :: rest := by
        intro body rest none
        have inside : ∀ b ∈ body, decide (b ≠ 10) = true := by
          intro b member
          exact decide_eq_true fun newline => none (newline ▸ member)
        rw [List.append_assoc, List.takeWhile_append_of_pos inside,
          List.dropWhile_append_of_pos inside]
        simp
      rw [List.flatten_cons, List.flatten_cons] at same
      have head := congrArg (List.takeWhile fun b : UInt8 => decide (b ≠ 10)) same
      have tail := congrArg (List.dropWhile fun b : UInt8 => decide (b ≠ 10)) same
      rw [(split body _ none).1, (split body' _ none').1] at head
      rw [(split body _ none).2, (split body' _ none').2] at tail
      rw [head, ih (fun line member => hx line (List.mem_cons_of_mem _ member))
        (fun line member => hy line (List.mem_cons_of_mem _ member)) (List.cons.inj tail).2]

theorem DecodesTo.oneLine {line : List UInt8} {timestampNs : ℕ} {tag message : List UInt8}
    (h : DecodesTo line timestampNs tag message) : OneLine line := by
  obtain ⟨body, same, none, _⟩ := h
  exact ⟨body, same, none⟩

theorem one_le_count_line (event : LogEvent) : 1 ≤ event.line.count 10 := by
  rw [LogEvent.line, List.count_append]
  exact Nat.le_add_left _ _

theorem oneLine_of_count {event : LogEvent} (h : event.line.count 10 = 1) :
    OneLine event.line := by
  refine ⟨_, rfl, fun member => ?_⟩
  have inside := List.count_pos_iff.mpr member
  rw [LogEvent.line, List.count_append] at h
  have newline : List.count 10 [(10 : UInt8)] = 1 := rfl
  omega

/-- As many newlines as events leave one to each of them. -/
theorem oneLine_of_count_flatMap {events : List LogEvent}
    (h : (events.flatMap LogEvent.line).count 10 = events.length) :
    ∀ event ∈ events, OneLine event.line := by
  have least : ∀ events : List LogEvent,
      events.length ≤ (events.flatMap LogEvent.line).count 10 := by
    intro events
    induction events with
    | nil => exact Nat.le_refl 0
    | cons event rest ih =>
      have := one_le_count_line event
      rw [List.flatMap_cons, List.count_append, List.length_cons]
      omega
  induction events with
  | nil => simp
  | cons event rest ih =>
    have first := one_le_count_line event
    have others := least rest
    rw [List.flatMap_cons, List.count_append, List.length_cons] at h
    intro e member
    rcases List.mem_cons.mp member with rfl | later
    · exact oneLine_of_count (by omega)
    · exact ih (by omega) e later

/-- A run's output decodes to its events exactly when nothing in them needs an escape:
no event can make up for another. -/
theorem log_output_decodes_iff (turns : List (Option LogEvent)) (remaining : List LogEvent)
    (ascii : ∀ event ∈ turns.reduceOption ++ remaining, event.Ascii) :
    (∃ output, drain turns remaining = some output ∧
        DecodesToEvents output (turns.reduceOption ++ remaining)) ↔
      ∀ event ∈ turns.reduceOption ++ remaining,
        Unescaped event.tagText event.messageText := by
  have printed := drain_eq ascii
  generalize turns.reduceOption ++ remaining = events at ascii printed ⊢
  rw [printed]
  constructor
  · rintro ⟨output, shown, lines, same, decoded⟩
    obtain rfl := Option.some.inj shown
    have single : ∀ line ∈ lines, OneLine line := by
      intro line member
      obtain ⟨i, inside, rfl⟩ := List.getElem_of_mem member
      exact (decoded.get inside (decoded.length_eq ▸ inside)).oneLine
    have newlines : lines.flatten.count 10 = lines.length := by
      rw [List.count_flatten, List.map_congr_left fun line member => (single line member).count]
      simp
    have apart := oneLine_of_count_flatMap (by rw [same, newlines, decoded.length_eq])
    have equal : lines = events.map LogEvent.line := by
      refine oneLine_flatten single (fun line member => ?_) (same.symm.trans List.flatMap_def)
      obtain ⟨event, inside, rfl⟩ := List.mem_map.mp member
      exact apart event inside
    rw [equal, List.forall₂_map_left_iff, List.forall₂_same] at decoded
    exact fun event member => (ascii event member).decodes_iff.mp (decoded event member)
  · intro unescaped
    refine ⟨_, rfl, events.map LogEvent.line, List.flatMap_def, ?_⟩
    rw [List.forall₂_map_left_iff, List.forall₂_same]
    exact fun event member => (ascii event member).decodes_iff.mpr (unescaped event member)

end Output

section Events

/-- A text in an array, filled up with NULs. -/
def arrayOf (n : ℕ) (text : List Char) : Vector UInt8 n :=
  Vector.ofFn fun i => (asciiBytes text).getD i 0

def startedEvent : LogEvent := ⟨7, arrayOf 32 "rt".toList, arrayOf 160 "started".toList⟩

theorem log_lines_decode_iff_started :
    drain [none, some startedEvent] [startedEvent] =
        some ([startedEvent, startedEvent].flatMap LogEvent.line) ∧
      DecodesTo startedEvent.line 7 startedEvent.tagText startedEvent.messageText := by
  have ascii : startedEvent.Ascii :=
    ⟨⟨asciiBytes "rt".toList, by decide +kernel, by decide⟩,
      ⟨asciiBytes "started".toList, by decide +kernel, by decide⟩⟩
  have events : [none, some startedEvent].reduceOption ++ [startedEvent] =
      [startedEvent, startedEvent] := rfl
  obtain ⟨printed, lines⟩ := log_lines_decode_iff [none, some startedEvent] [startedEvent]
    (by simp [ascii])
  rw [events] at printed lines
  refine ⟨printed, (lines startedEvent (by simp)).2.2.mpr ?_⟩
  decide +kernel

/-- A message that closes its line and begins another. -/
def forgingMessage : List Char :=
  "a\"\x7d\n\x7b\"timestamp_ns\":8,\"tag\":\"rt\",\"message\":\"b".toList

def forgingEvent : LogEvent := ⟨7, arrayOf 32 "rt".toList, arrayOf 160 forgingMessage⟩

theorem log_line_forged :
    forgingEvent.Ascii ∧ ∃ line, printWhileRunning forgingEvent = some line ∧
      ¬DecodesTo line 7 forgingEvent.tagText forgingEvent.messageText := by
  have ascii : forgingEvent.Ascii :=
    ⟨⟨asciiBytes "rt".toList, by decide +kernel, by decide⟩,
      ⟨asciiBytes forgingMessage, by decide +kernel, by decide +kernel⟩⟩
  refine ⟨ascii, _, ascii.printed, fun decoded => ?_⟩
  have escaped : ¬Unescaped forgingEvent.tagText forgingEvent.messageText := by
    decide +kernel
  exact escaped (ascii.decodes_iff.mp decoded)

end Events

end NeuroKinetic
