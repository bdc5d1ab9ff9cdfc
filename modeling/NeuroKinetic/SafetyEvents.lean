import NeuroKinetic.Library.HttpMessage
import NeuroKinetic.Library.JsonPrint
import NeuroKinetic.TelemetryWorker

open Binary32 HttpMessage Json OutputStream

namespace NeuroKinetic

section Texts

/-- `std::to_string` of an unsigned integer. -/
def toStringUint (n : Nat) : List Char := Nat.toDigits 10 n

/-- The `endTimeUnixNano` of an event is a microsecond later, modulo 2^64. -/
def endTime (timestampNs : Nat) : Nat := (timestampNs + 1000) % 2 ^ 64

def postRequest (path host body : List Char) : List Char :=
  "POST ".toList ++ path ++ " HTTP/1.1\r\nHost: ".toList ++ host ++
    "\r\nContent-Type: application/json\r\nContent-Length: ".toList ++ toStringUint body.length ++
    "\r\nConnection: close\r\n\r\n".toList ++ body

variable {K : Type} [Field K] [LinearOrder K] [FloorRing K]

/-- `std::to_string` of a float: six digits after the point. -/
def toStringFloat : Ieee K → List Char
  | .fin x => signText (decide (x < 0)) ++ decimal (roundHalfEven (|x| * ((10 ^ 6 : Nat) : K))) 6
  | .posInf => "inf".toList
  | .negInf => "-inf".toList
  | .nan => "nan".toList

/-- What is printed when there is no socket. -/
def fallbackBody (frame : KinematicTelemetryFrame K) : List Char :=
  "\x7b\"event\":\"SAFETY_LIMIT_BREACH\",\"timestamp_ns\":".toList ++
    toStringUint frame.timestampNs ++ ",\"flags\":".toList ++ toStringUint frame.safetyFlags ++
    "\x7d".toList

def lokiBody (frame : KinematicTelemetryFrame K) : List Char :=
  "\x7b\"streams\":[\x7b\"stream\":\x7b\"service\":\"neurokinetic\",".toList ++
    "\"event\":\"SAFETY_LIMIT_BREACH\"\x7d,\"values\":[[\"".toList ++
    toStringUint frame.timestampNs ++ "\",\"\x7b\\\"flags\\\":".toList ++
    toStringUint frame.safetyFlags ++ ",\\\"loop_duration_us\\\":".toList ++
    toStringFloat frame.loopDurationUs ++ "\x7d\"]]\x7d]\x7d".toList

def traceBody (frame : KinematicTelemetryFrame K) : List Char :=
  "\x7b\"resourceSpans\":[\x7b\"resource\":\x7b\"attributes\":[".toList ++
    "\x7b\"key\":\"service.name\",\"value\":\x7b\"stringValue\":\"neurokinetic\"\x7d\x7d]\x7d,".toList ++
    "\"scopeSpans\":[\x7b\"spans\":[\x7b\"name\":\"SAFETY_LIMIT_BREACH\",".toList ++
    "\"kind\":1,\"startTimeUnixNano\":\"".toList ++ toStringUint frame.timestampNs ++
    "\",\"endTimeUnixNano\":\"".toList ++ toStringUint (endTime frame.timestampNs) ++
    "\",\"attributes\":[\x7b\"key\":\"safety_flags\",".toList ++
    "\"value\":\x7b\"intValue\":\"".toList ++ toStringUint frame.safetyFlags ++
    "\"\x7d\x7d]\x7d]\x7d]\x7d]\x7d".toList

def lokiRequest (frame : KinematicTelemetryFrame K) : List Char :=
  postRequest "/loki/api/v1/push".toList "localhost:3100".toList (lokiBody frame)

def traceRequest (frame : KinematicTelemetryFrame K) : List Char :=
  postRequest "/v1/traces".toList "localhost:4318".toList (traceBody frame)

/-- The message that the push to the log store carries as a string. -/
def lokiLine (frame : KinematicTelemetryFrame K) : List Char :=
  "\x7b\"flags\":".toList ++ toStringUint frame.safetyFlags ++ ",\"loop_duration_us\":".toList ++
    toStringFloat frame.loopDurationUs ++ "\x7d".toList

end Texts

section Documents

/-- A string of letters that need no escape. -/
def text (s : String) : Document := .string s.toList

def decimalText (n : Nat) : Document := .string (toStringUint n)

def fallbackDocument (timestampNs flags : Nat) : Document :=
  .object [("event".toList, text "SAFETY_LIMIT_BREACH"),
    ("timestamp_ns".toList, .number false timestampNs 0), ("flags".toList, .number false flags 0)]

def lokiDocument (timestampNs : Nat) (line : List Char) : Document :=
  .object [("streams".toList, .array [.object [
    ("stream".toList, .object [("service".toList, text "neurokinetic"),
      ("event".toList, text "SAFETY_LIMIT_BREACH")]),
    ("values".toList, .array [.array [decimalText timestampNs, .string line]])]])]

/-- The message: its flags, and its duration in millionths. -/
def lineDocument (flags : Nat) (negative : Bool) (millionths : Nat) : Document :=
  .object [("flags".toList, .number false flags 0),
    ("loop_duration_us".toList, .number negative millionths 6)]

def keyValue (key kind : String) (value : Document) : Document :=
  .object [("key".toList, text key), ("value".toList, .object [(kind.toList, value)])]

def traceDocument (timestampNs flags : Nat) : Document :=
  .object [("resourceSpans".toList, .array [.object [
    ("resource".toList, .object [("attributes".toList,
      .array [keyValue "service.name" "stringValue" (text "neurokinetic")])]),
    ("scopeSpans".toList, .array [.object [("spans".toList, .array [.object [
      ("name".toList, text "SAFETY_LIMIT_BREACH"), ("kind".toList, .number false 1 0),
      ("startTimeUnixNano".toList, decimalText timestampNs),
      ("endTimeUnixNano".toList, decimalText (endTime timestampNs)),
      ("attributes".toList,
        .array [keyValue "safety_flags" "intValue" (decimalText flags)])]])]])]])]

end Documents

section Escapes

theorem flatMap_escapedChar {s : List Char} (h : ∀ c ∈ s, escapedChar c = [c]) :
    s.flatMap escapedChar = s := by
  induction s with
  | nil => rfl
  | cons c s ih =>
    rw [List.flatMap_cons, h c List.mem_cons_self,
      ih fun d member => h d (List.mem_cons_of_mem c member), List.singleton_append]

theorem escapedChar_digit {c : Char} (digit : c.isDigit) : escapedChar c = [c] := by
  have quote := digit_ne (d := '"') digit (by decide)
  have back := digit_ne (d := '\\') digit (by decide)
  have printable : ¬c.toNat < 32 := by
    have low : 48 ≤ c.toNat := (Char.isDigit_iff_toNat.mp digit).1
    omega
  rw [escapedChar, if_neg (not_or.mpr ⟨quote, back⟩), if_neg printable]

theorem flatMap_toStringUint (n : Nat) : (toStringUint n).flatMap escapedChar = toStringUint n :=
  flatMap_escapedChar fun _ member => escapedChar_digit ((digits_toDigits n).2 _ member)

theorem mem_decimal {n places : Nat} {c : Char} (member : c ∈ decimal n places) :
    c.isDigit ∨ c = '.' := by
  obtain ⟨whole, frac, after, text, isWhole, isFraction, _⟩ := decimal_parts n places
  rw [text] at member
  rcases List.mem_append.mp member with digit | later
  · exact Or.inl (isWhole.run.2 c digit)
  · cases isFraction with
    | none => cases later
    | some run =>
      rcases List.mem_cons.mp later with point | digit
      · exact Or.inr point
      · exact Or.inl (run.2 c digit)

variable {K : Type} [Field K] [LinearOrder K] [FloorRing K]

theorem flatMap_toStringFloat (x : Ieee K) :
    (toStringFloat x).flatMap escapedChar = toStringFloat x := by
  cases x with
  | fin x =>
    refine flatMap_escapedChar fun c member => ?_
    rcases List.mem_append.mp member with sign | number
    · have minus : c = '-' := by
        unfold signText at sign
        split at sign
        next => exact List.mem_singleton.mp sign
        next => cases sign
      rw [minus]
      rfl
    · rcases mem_decimal number with digit | rfl
      · exact escapedChar_digit digit
      · rfl
  | posInf => rfl
  | negInf => rfl
  | nan => rfl

end Escapes

section Printed

variable {K : Type} [Field K] [LinearOrder K] [FloorRing K] (frame : KinematicTelemetryFrame K)

theorem quote_plain {s : List Char} (h : s.flatMap escapedChar = s) :
    quote s = '"' :: (s ++ ['"']) := by
  rw [quote, h]

theorem number_text (n : Nat) : (Document.number false n 0).text = toStringUint n := rfl

theorem decimalText_text (n : Nat) : (decimalText n).text = '"' :: (toStringUint n ++ ['"']) :=
  quote_plain (flatMap_toStringUint n)

theorem lokiLine_text {x : K} (duration : frame.loopDurationUs = .fin x) : lokiLine frame =
    (lineDocument frame.safetyFlags (decide (x < 0))
      (roundHalfEven (|x| * ((10 ^ 6 : Nat) : K)))).text := by
  have number : (Document.number (decide (x < 0)) (roundHalfEven (|x| * ((10 ^ 6 : Nat) : K))) 6).text =
      toStringFloat frame.loopDurationUs := by
    rw [duration]
    rfl
  unfold lokiLine lineDocument
  simp only [String.reduceToList]
  simp only [Document.text.eq_4, memberTexts, commaSeparated, number_text, number]
  simp (disch := decide) only [quote_plain]
  simp only [listText, List.flatMap_cons, List.flatMap_nil, List.cons_append, List.nil_append,
    List.append_assoc, List.append_nil]

theorem lokiLine_escaped : (lokiLine frame).flatMap escapedChar =
    "\x7b\\\"flags\\\":".toList ++ toStringUint frame.safetyFlags ++
      ",\\\"loop_duration_us\\\":".toList ++ toStringFloat frame.loopDurationUs ++
      "\x7d".toList := by
  unfold lokiLine
  simp only [String.reduceToList, List.flatMap_append, flatMap_toStringUint, flatMap_toStringFloat]
  rfl

theorem lokiBody_text :
    lokiBody frame = (lokiDocument frame.timestampNs (lokiLine frame)).text := by
  have line := quote.eq_1 (lokiLine frame)
  rw [lokiLine_escaped] at line
  unfold lokiBody lokiDocument text
  simp only [String.reduceToList] at line ⊢
  simp only [Document.text.eq_1, Document.text.eq_3, Document.text.eq_4, memberTexts, itemTexts,
    commaSeparated, decimalText_text]
  simp (disch := decide) only [quote_plain, line]
  simp only [listText, List.flatMap_cons, List.flatMap_nil, List.cons_append, List.nil_append,
    List.append_assoc, List.append_nil]

omit [Field K] [LinearOrder K] [FloorRing K] in
set_option maxRecDepth 2000 in
theorem traceBody_text :
    traceBody frame = (traceDocument frame.timestampNs frame.safetyFlags).text := by
  have kind : toStringUint 1 = ['1'] := rfl
  unfold traceBody traceDocument keyValue text
  simp only [String.reduceToList]
  simp only [Document.text.eq_1, Document.text.eq_3, Document.text.eq_4, memberTexts, itemTexts,
    commaSeparated, decimalText_text, number_text]
  simp (disch := decide) only [quote_plain]
  simp only [listText, kind, List.flatMap_cons, List.flatMap_nil, List.cons_append, List.nil_append,
    List.append_assoc, List.append_nil]

end Printed

section Decoded

variable {K : Type} [Field K] [LinearOrder K] [FloorRing K] {words : List (List Char × Value)}
  (dialect : Dialect words) {frame : KinematicTelemetryFrame K}

include dialect

/-- A duration that is not finite cannot be read, and spoils the whole message. -/
theorem lokiLine_rejects (unordered : frame.loopDurationUs.toFinite? = none) (fuel : Nat) :
    Rejects (value words fuel) (lokiLine frame) := by
  have parts : lokiLine frame = '\x7b' :: (listText
      (memberText [] "flags".toList [] (toStringUint frame.safetyFlags))
      [memberText [] "loop_duration_us".toList [] (toStringFloat frame.loopDurationUs)] [] ++
        ['\x7d']) := by
    unfold lokiLine memberText listText
    simp only [String.reduceToList, List.flatMap_cons, List.flatMap_nil, List.cons_append,
      List.nil_append, List.append_assoc, List.append_nil]
  have nonFinite : toStringFloat frame.loopDurationUs ∈ nonFiniteTexts := by
    cases duration : frame.loopDurationUs with
    | fin x =>
      rw [duration] at unordered
      cases unordered
    | posInf => exact List.mem_cons_of_mem _ (List.mem_cons_of_mem _ List.mem_cons_self)
    | negInf =>
      exact List.mem_cons_of_mem _ (List.mem_cons_of_mem _ (List.mem_cons_of_mem _ List.mem_cons_self))
    | nan => exact List.mem_cons_self
  have starts : Starts (toStringFloat frame.loopDurationUs) := by
    simp only [nonFiniteTexts, List.mem_cons, List.not_mem_nil, or_false] at nonFinite
    rcases nonFinite with text | text | text | text <;> rw [text] <;> exact ⟨_, _, rfl, by decide⟩
  cases fuel with
  | zero => exact fun _ => rfl
  | succ fuel =>
    have broken : Rejects (member (value words fuel))
        (memberText [] "loop_duration_us".toList [] (toStringFloat frame.loopDurationUs)) :=
      member_rejects (by decide) (by decide) (by decide) starts (value_nonFinite dialect nonFinite)
    have flags : (∃ x, Reads (member (value words fuel))
          (memberText [] "flags".toList [] (toStringUint frame.safetyFlags)) x) ∨
        Rejects (member (value words fuel))
          (memberText [] "flags".toList [] (toStringUint frame.safetyFlags)) := by
      have digits : Starts (toStringUint frame.safetyFlags) :=
        (Document.number false frame.safetyFlags 0).starts
      cases fuel with
      | zero => exact Or.inr (member_rejects (by decide) (by decide) (by decide) digits fun _ => rfl)
      | succ fuel =>
        exact Or.inl ⟨_, member_reads (by decide) (by decide) (by decide) digits
          (decimal_reads dialect false frame.safetyFlags 0 fuel)⟩
    rw [parts]
    refine object_rejects ⟨[], '"', _, rfl, by decide, by decide, by decide⟩ ?_
      ⟨_, List.mem_cons_of_mem _ List.mem_cons_self, broken⟩
    intro text member
    rcases List.mem_cons.mp member with rfl | member
    · exact flags
    · rw [List.mem_singleton.mp member]
      exact Or.inr broken

/-- The message reads back as the flags and the duration, to six places, of a frame whose
duration is a number, and as nothing for any other frame. -/
theorem lokiLine_parses (frame : KinematicTelemetryFrame K) :
    (∀ x, frame.loopDurationUs = .fin x → Parses words (lokiLine frame)
      (lineDocument frame.safetyFlags (decide (x < 0))
        (roundHalfEven (|x| * ((10 ^ 6 : Nat) : K)))).value) ∧
      (frame.loopDurationUs.toFinite? = none → ∀ v, ¬Parses words (lokiLine frame) v) := by
  refine ⟨fun x duration => ?_, fun unordered v parsed => ?_⟩
  · rw [lokiLine_text frame duration]
    exact Document.parses dialect _
  · obtain ⟨fuel, read⟩ := parsed
    have starts : skipSpace (lokiLine frame) = lokiLine frame := skipSpace_cons (by decide) _
    have rejects := lokiLine_rejects dialect unordered fuel []
    rw [List.append_nil] at rejects
    rw [parseWith, starts, rejects] at read
    cases read

end Decoded

section Requests

theorem return_not_toStringUint (n : Nat) : '\r' ∉ toStringUint n := by
  intro member
  have digit := (digits_toDigits n).2 _ member
  cases digit

variable (path host body : List Char)

def requestLines : List (List Char) :=
  ["POST ".toList ++ path ++ " HTTP/1.1".toList, "Host: ".toList ++ host,
    "Content-Type: application/json".toList, lengthName ++ toStringUint body.length,
    "Connection: close".toList]

theorem postRequest_message :
    postRequest path host body = message (requestLines path host body) body := by
  unfold postRequest message requestLines lengthName crlf
  simp only [String.reduceToList, List.flatMap_cons, List.flatMap_nil, List.cons_append,
    List.nil_append, List.append_assoc, List.append_nil]

variable {path host}

theorem requestLines_head (plainPath : '\r' ∉ path) (plainHost : '\r' ∉ host) :
    ∀ line ∈ requestLines path host body, HeadLine line := by
  have digits := return_not_toStringUint body.length
  intro line member
  unfold requestLines lengthName at member
  simp only [String.reduceToList] at member
  simp only [List.mem_cons, List.not_mem_nil, or_false] at member
  rcases member with rfl | rfl | rfl | rfl | rfl
  · simp [HeadLine, plainPath]
  · simp [HeadLine, plainHost]
  · simp [HeadLine]
  · simp [HeadLine, digits]
  · simp [HeadLine]

theorem toldLength_requestLines : toldLength (requestLines path host body) = some body.length := by
  refine toldLength_digits body.length ["POST ".toList ++ path ++ " HTTP/1.1".toList,
    "Host: ".toList ++ host, "Content-Type: application/json".toList] (fun line member => ?_)
    ["Connection: close".toList]
  unfold lengthName
  simp only [String.reduceToList] at member ⊢
  simp only [List.mem_cons, List.not_mem_nil, or_false] at member
  rcases member with rfl | rfl | rfl <;> simp [List.isPrefixOf]

/-- The receiver of a push gets its body whole, whatever stands in it. -/
theorem receive_postRequest (plainPath : '\r' ∉ path) (plainHost : '\r' ∉ host) :
    receive (postRequest path host body) = some (requestLines path host body, body) := by
  rw [postRequest_message]
  exact receive_message (requestLines_head body plainPath plainHost) (toldLength_requestLines body)

end Requests

section RoundTrip

variable {K : Type} [Field K] [LinearOrder K] [FloorRing K] {words : List (List Char × Value)}

theorem receive_lokiRequest (frame : KinematicTelemetryFrame K) : receive (lokiRequest frame) =
    some (requestLines "/loki/api/v1/push".toList "localhost:3100".toList (lokiBody frame),
      lokiBody frame) :=
  receive_postRequest _ (by decide) (by decide)

omit [Field K] [LinearOrder K] [FloorRing K] in
theorem receive_traceRequest (frame : KinematicTelemetryFrame K) : receive (traceRequest frame) =
    some (requestLines "/v1/traces".toList "localhost:4318".toList (traceBody frame),
      traceBody frame) :=
  receive_postRequest _ (by decide) (by decide)

/-- Both requests of an event arrive whole and read as its time and its flags. The message
inside the push reads as flags and duration if and only if the duration is a number. -/
theorem event_requests_read (dialect : Dialect words) (frame : KinematicTelemetryFrame K) :
    (∃ lines body, receive (lokiRequest frame) = some (lines, body) ∧
      Parses words body (lokiDocument frame.timestampNs (lokiLine frame)).value ∧
      ((∃ v, Parses words (lokiLine frame) v) ↔ ∃ x, frame.loopDurationUs = .fin x) ∧
      ∀ x, frame.loopDurationUs = .fin x → Parses words (lokiLine frame)
        (lineDocument frame.safetyFlags (decide (x < 0))
          (roundHalfEven (|x| * ((10 ^ 6 : Nat) : K)))).value) ∧
    ∃ lines body, receive (traceRequest frame) = some (lines, body) ∧
      Parses words body (traceDocument frame.timestampNs frame.safetyFlags).value := by
  obtain ⟨ordinary, unreadable⟩ := lokiLine_parses dialect frame
  refine ⟨⟨_, _, receive_lokiRequest frame, ?_, ⟨?_, ?_⟩, ordinary⟩,
    _, _, receive_traceRequest frame, ?_⟩
  · rw [lokiBody_text]
    exact Document.parses dialect _
  · rintro ⟨v, parsed⟩
    cases duration : frame.loopDurationUs with
    | fin x => exact ⟨x, rfl⟩
    | posInf | negInf | nan => exact absurd parsed (unreadable (by rw [duration]; rfl) v)
  · rintro ⟨x, duration⟩
    exact ⟨_, ordinary x duration⟩
  · rw [traceBody_text]
    exact Document.parses dialect _

/-- An event of a tick without a duration. -/
theorem event_requests_read_unordered :
    ¬∃ v, Parses standardWords (lokiLine (⟨0, .nan, .fin 0, .fin 0, 2⟩ :
      KinematicTelemetryFrame ℚ)) v := by
  intro parsed
  obtain ⟨_, _, _, _, readable, _⟩ := (event_requests_read (Or.inl rfl)
    (⟨0, .nan, .fin 0, .fin 0, 2⟩ : KinematicTelemetryFrame ℚ)).1
  obtain ⟨x, duration⟩ := readable.mp parsed
  cases duration

end RoundTrip

end NeuroKinetic
