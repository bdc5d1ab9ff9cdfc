import NeuroKinetic.Library.HttpMessage
import NeuroKinetic.Library.PrometheusText
import NeuroKinetic.MetricsScrapes
import NeuroKinetic.SafetyEvents
import NeuroKinetic.ScrapeRuns
import NeuroKinetic.ShutdownMetrics

open Binary32 HttpMessage OutputStream PrometheusText RidgeProjection SignificantDigits

namespace NeuroKinetic

section Words

/-- What the loads of one scrape find, and the drops counted when it prints them. -/
structure ScrapeWords where
  samples : BitVec 64
  sum : BitVec 64
  bucket : Fin 6 → Fin 6 → BitVec 64
  conditionNumber : BitVec 32
  torqueRatio : BitVec 32
  violation : Fin 3 → BitVec 64
  dropped : BitVec 64

/-- A magnitude as a double; the counters leave neither its range nor its normal numbers. -/
def toDouble (x : ℚ) : ℚ := roundTo 2 52 x

/-- A sum of thousandths divided by `1000.0`, as a stream prints it. -/
def sumText (sum : BitVec 64) : List Char :=
  formatMagnitude (toDouble (toDouble sum.toNat / 1000))

/-- The inner loop of one line, in its 64 bits. -/
def cumulativeWord (buckets : Fin 6 → BitVec 64) (line : Fin 6) : BitVec 64 :=
  ((List.finRange 6).filter (· ≤ line)).foldl (fun sum b => sum + buckets b) 0

/-- The strings `le` of both printers. -/
def bucketLabel : Fin 6 → List Char
  | 0 => "50".toList
  | 1 => "100".toList
  | 2 => "250".toList
  | 3 => "500".toList
  | 4 => "1000".toList
  | 5 => "+Inf".toList

def metricsBody (w : ScrapeWords) : List Char :=
  "# TYPE neurokinetic_loop_duration_us histogram\n".toList ++
    "neurokinetic_loop_duration_us_count ".toList ++ formatUint w.samples ++ "\n".toList ++
    "neurokinetic_loop_duration_us_sum ".toList ++ sumText w.sum ++ "\n".toList ++
    (List.finRange 6).flatMap (fun index =>
      "neurokinetic_loop_duration_us_bucket\x7ble=\"".toList ++ bucketLabel index ++
        "\"\x7d ".toList ++ formatUint (cumulativeWord (w.bucket index) index) ++ "\n".toList) ++
    "# TYPE neurokinetic_condition_number gauge\nneurokinetic_condition_number ".toList ++
    formatFloat w.conditionNumber ++ "\n".toList ++
    "# TYPE neurokinetic_torque_saturation_ratio gauge\n".toList ++
    "neurokinetic_torque_saturation_ratio ".toList ++ formatFloat w.torqueRatio ++ "\n".toList ++
    "# TYPE neurokinetic_safety_violations_total counter\n".toList ++
    "neurokinetic_safety_violations_total\x7btype=\"estop\"\x7d ".toList ++
    formatUint (w.violation 0) ++ "\n".toList ++
    "neurokinetic_safety_violations_total\x7btype=\"kinematic_singularity\"\x7d ".toList ++
    formatUint (w.violation 1) ++ "\n".toList ++
    "neurokinetic_safety_violations_total\x7btype=\"velocity_clamp\"\x7d ".toList ++
    formatUint (w.violation 2) ++ "\n".toList ++
    "# TYPE neurokinetic_telemetry_drops_total counter\nneurokinetic_telemetry_drops_total ".toList ++
    formatUint w.dropped ++ "\n".toList

def metricsResponse (w : ScrapeWords) : List Char :=
  let payload := metricsBody w
  "HTTP/1.1 200 OK\r\nContent-Type: text/plain; version=0.0.4\r\nContent-Length: ".toList ++
    toStringUint payload.length ++ "\r\nConnection: close\r\n\r\n".toList ++ payload

end Words

section Lines

variable {α : Type}

/-- The samples of a scrape. -/
structure Scrape (α : Type) where
  count : α
  sum : α
  buckets : Fin 6 → α
  conditionNumber : α
  torqueRatio : α
  violations : Fin 3 → α
  drops : α

def Scrape.lines (s : Scrape α) : List (Line α) :=
  [.type "neurokinetic_loop_duration_us".toList "histogram".toList,
    .sample "neurokinetic_loop_duration_us_count".toList none s.count,
    .sample "neurokinetic_loop_duration_us_sum".toList none s.sum] ++
  (List.finRange 6).map (fun index => .sample "neurokinetic_loop_duration_us_bucket".toList
    (some ("le".toList, bucketLabel index)) (s.buckets index)) ++
  [.type "neurokinetic_condition_number".toList "gauge".toList,
    .sample "neurokinetic_condition_number".toList none s.conditionNumber,
    .type "neurokinetic_torque_saturation_ratio".toList "gauge".toList,
    .sample "neurokinetic_torque_saturation_ratio".toList none s.torqueRatio,
    .type "neurokinetic_safety_violations_total".toList "counter".toList,
    .sample "neurokinetic_safety_violations_total".toList
      (some ("type".toList, "estop".toList)) (s.violations 0),
    .sample "neurokinetic_safety_violations_total".toList
      (some ("type".toList, "kinematic_singularity".toList)) (s.violations 1),
    .sample "neurokinetic_safety_violations_total".toList
      (some ("type".toList, "velocity_clamp".toList)) (s.violations 2),
    .type "neurokinetic_telemetry_drops_total".toList "counter".toList,
    .sample "neurokinetic_telemetry_drops_total".toList none s.drops]

def ScrapeWords.printed (w : ScrapeWords) : Scrape (List Char) where
  count := formatUint w.samples
  sum := sumText w.sum
  buckets := fun index => formatUint (cumulativeWord (w.bucket index) index)
  conditionNumber := formatFloat w.conditionNumber
  torqueRatio := formatFloat w.torqueRatio
  violations := fun j => formatUint (w.violation j)
  drops := formatUint w.dropped

set_option maxRecDepth 2000 in
theorem metricsBody_lines (w : ScrapeWords) : metricsBody w = body w.printed.lines := by
  unfold metricsBody body Scrape.lines ScrapeWords.printed
  simp only [String.reduceToList, List.flatMap_append, List.flatMap_map, List.flatMap_cons,
    List.flatMap_nil, Line.text, typeStart, labelText, List.cons_append, List.nil_append,
    List.append_assoc, List.append_nil]

/-- The scrape whose values are read. -/
structure Scrape.Reads {β : Type} (read : α → Option β) (s : Scrape α) (t : Scrape β) : Prop where
  count : read s.count = some t.count
  sum : read s.sum = some t.sum
  buckets : ∀ i, read (s.buckets i) = some (t.buckets i)
  conditionNumber : read s.conditionNumber = some t.conditionNumber
  torqueRatio : read s.torqueRatio = some t.torqueRatio
  violations : ∀ j, read (s.violations j) = some (t.violations j)
  drops : read s.drops = some t.drops

theorem Scrape.Reads.lines {β : Type} {read : α → Option β} {s : Scrape α} {t : Scrape β}
    (h : s.Reads read t) : s.lines.mapM (Line.read read) = some t.lines := by
  have sample : ∀ {x : α} {y : β}, read x = some y → ∀ name label,
      (Line.sample name label x).read read = some (.sample name label y) :=
    fun eq name label => read_sample name label eq
  have violation : ∀ j name label, (Line.sample name label (s.violations j)).read read =
      some (.sample name label (t.violations j)) := fun j => sample (h.violations j)
  have counts := sample h.count
  have sums := sample h.sum
  have condition := sample h.conditionNumber
  have ratio := sample h.torqueRatio
  have drops := sample h.drops
  refine mapM_read (List.rel_append (List.rel_append ?_ ?_) ?_)
  · exact .cons rfl (.cons (counts _ _) (.cons (sums _ _) .nil))
  · refine List.forall₂_map_left_iff.mpr (List.forall₂_map_right_iff.mpr ?_)
    exact List.forall₂_same.mpr fun index _ => sample (h.buckets index) _ _
  · exact .cons rfl (.cons (condition _ _) (.cons rfl (.cons (ratio _ _) (.cons rfl
      (.cons (violation 0 _ _) (.cons (violation 1 _ _) (.cons (violation 2 _ _)
        (.cons rfl (.cons (drops _ _) .nil)))))))))

end Lines

section Printed

theorem newline_not_sumText (sum : BitVec 64) : '\n' ∉ sumText sum :=
  newline_not_number (formatMagnitude_denotes (roundTo_nonneg 2 52 _))

theorem bucketLabel_plain : ∀ index, PlainLabel (bucketLabel index) := by decide

theorem printed_plain (w : ScrapeWords) : ∀ line ∈ w.printed.lines, line.Plain := by
  have uint : ∀ {bits : Nat} (n : BitVec bits), '\n' ∉ formatUint n := newline_not_formatUint
  rw [Scrape.lines]
  simp only [List.forall_mem_append, List.forall_mem_cons, List.forall_mem_map]
  refine ⟨⟨⟨⟨by decide, by decide⟩, plain_bare (by decide) (uint _),
    plain_bare (by decide) (newline_not_sumText _), ?_⟩, fun index _ => ?_⟩,
    ⟨by decide, by decide⟩, plain_bare (by decide) (newline_not_formatFloat _),
    ⟨by decide, by decide⟩, plain_bare (by decide) (newline_not_formatFloat _),
    ⟨by decide, by decide⟩, plain_labelled (by decide) (by decide) (by decide) (uint _),
    plain_labelled (by decide) (by decide) (by decide) (uint _),
    plain_labelled (by decide) (by decide) (by decide) (uint _),
    ⟨by decide, by decide⟩, plain_bare (by decide) (uint _), ?_⟩
  · exact fun _ member => absurd member List.not_mem_nil
  · exact plain_labelled (by decide) (by decide) (bucketLabel_plain index) (uint _)
  · exact fun _ member => absurd member List.not_mem_nil

end Printed

section Response

/-- The head of the answer. -/
def responseLines (payload : List Char) : List (List Char) :=
  ["HTTP/1.1 200 OK".toList, "Content-Type: text/plain; version=0.0.4".toList,
    lengthName ++ toStringUint payload.length, "Connection: close".toList]

variable (payload : List Char)

theorem response_message :
    "HTTP/1.1 200 OK\r\nContent-Type: text/plain; version=0.0.4\r\nContent-Length: ".toList ++
      toStringUint payload.length ++ "\r\nConnection: close\r\n\r\n".toList ++ payload =
    message (responseLines payload) payload := by
  unfold message responseLines lengthName crlf
  simp only [String.reduceToList, List.flatMap_cons, List.flatMap_nil, List.cons_append,
    List.nil_append, List.append_assoc, List.append_nil]

theorem receive_response :
    receive (message (responseLines payload) payload) = some (responseLines payload, payload) := by
  have digits := return_not_toStringUint payload.length
  refine receive_message (fun line member => ?_) ?_
  · unfold responseLines lengthName at member
    simp only [String.reduceToList] at member
    simp only [List.mem_cons, List.not_mem_nil, or_false] at member
    rcases member with rfl | rfl | rfl | rfl
    · simp [HeadLine]
    · simp [HeadLine]
    · simp [HeadLine, digits]
    · simp [HeadLine]
  · refine toldLength_digits payload.length ["HTTP/1.1 200 OK".toList,
      "Content-Type: text/plain; version=0.0.4".toList] (fun line member => ?_)
      ["Connection: close".toList]
    unfold lengthName
    simp only [String.reduceToList] at member ⊢
    simp only [List.mem_cons, List.not_mem_nil, or_false] at member
    rcases member with rfl | rfl <;> simp [List.isPrefixOf]

/-- The body arrives whole. -/
theorem receive_metricsResponse (w : ScrapeWords) :
    receive (metricsResponse w) = some (responseLines (metricsBody w), metricsBody w) := by
  unfold metricsResponse
  rw [response_message, receive_response]

end Response

section Values

theorem foldl_add_toNat (buckets : Fin 6 → BitVec 64) (l : List (Fin 6)) (start : BitVec 64) :
    (l.foldl (fun sum b => sum + buckets b) start).toNat =
      l.foldl (fun sum b => (sum + (buckets b).toNat) % 2 ^ 64) start.toNat := by
  induction l generalizing start with
  | nil => rfl
  | cons b rest ih => rw [List.foldl_cons, List.foldl_cons, ih, BitVec.toNat_add]

theorem cumulativeWord_toNat (buckets : Fin 6 → BitVec 64) (line : Fin 6) :
    (cumulativeWord buckets line).toNat = cumulative (fun b => (buckets b).toNat) line :=
  foldl_add_toNat buckets _ 0

/-- A line adds up the buckets up to its own and no others. -/
theorem cumulative_congr {f g : Fin 6 → Nat} {line : Fin 6} (same : ∀ b ≤ line, f b = g b) :
    cumulative f line = cumulative g line := by
  rw [cumulative_eq, cumulative_eq]
  congr 1
  exact Finset.sum_congr rfl fun b inside => same b (Finset.mem_Iic.mp inside)

theorem readValue_formatUint {bits : Nat} (w : BitVec bits) :
    readValue (formatUint w) = some (.fin w.toNat) := readValue_toDigits w.toNat

variable {K : Type} [Field K] [LinearOrder K] [IsStrictOrderedRing K]

/-- The sum that is read, after two roundings to doubles and one to six digits. -/
theorem readValue_sumText (sum : BitVec 64) : ∃ y, readValue (sumText sum) = some (.fin y) ∧
    Shows (.fin y) (.fin ((sum.toNat : K) / ((1000 : Nat) : K))) := by
  have two : 1 < 2 := by decide
  have whole : (0 : ℚ) ≤ sum.toNat := Nat.cast_nonneg _
  have first := roundTo_near two 52 whole
  have double := roundTo_nonneg 2 52 (sum.toNat : ℚ)
  have second := roundTo_near two 52 (div_nonneg double (by norm_num : (0 : ℚ) ≤ 1000))
  have quotient := roundTo_nonneg 2 52 (roundTo 2 52 (sum.toNat : ℚ) / 1000)
  have third := roundTo_near (show 1 < 10 by decide) 5 quotient
  refine ⟨_, readValue_formatMagnitude quotient, ?_⟩
  change |((roundTo 10 5 (roundTo 2 52 (roundTo 2 52 (sum.toNat : ℚ) / 1000)) : ℚ) : K) - _| *
    199999 ≤ _
  generalize roundTo 10 5 (roundTo 2 52 (roundTo 2 52 (sum.toNat : ℚ) / 1000)) = printed at third ⊢
  generalize roundTo 2 52 (roundTo 2 52 (sum.toNat : ℚ) / 1000) = divided at second third quotient
  generalize roundTo 2 52 (sum.toNat : ℚ) = converted at first second double
  have near : |printed - sum.toNat / 1000| * 199999 ≤ |(sum.toNat : ℚ) / 1000| := by
    rw [abs_of_nonneg (div_nonneg whole (by norm_num : (0 : ℚ) ≤ 1000))]
    have low := neg_abs_le (converted - sum.toNat)
    have high := le_abs_self (converted - sum.toNat)
    have low' := neg_abs_le (divided - converted / 1000)
    have high' := le_abs_self (divided - converted / 1000)
    have low'' := neg_abs_le (printed - divided)
    have high'' := le_abs_self (printed - divided)
    norm_num at first second third
    rcases abs_cases (printed - sum.toNat / 1000) with ⟨eq, _⟩ | ⟨eq, _⟩ <;> rw [eq] <;> linarith
  have moved := (Rat.cast_le (K := K)).mpr near
  push_cast at moved ⊢
  exact moved

/-- The words are those that loads of these counters find. -/
structure ScrapeWords.Finds (w : ScrapeWords) (found : MetricLoad → RecordedMetrics K) : Prop where
  samples : w.samples.toNat = (found .samples).loopSamples
  sum : w.sum.toNat = (found .sum).loopSumUs
  bucket : ∀ line b, b ≤ line →
    (w.bucket line b).toNat = (found (.bucket line b)).loopBuckets b
  conditionNumber : decode w.conditionNumber = (found .conditionNumber).conditionNumber
  torqueRatio : decode w.torqueRatio = (found .torqueRatio).torqueRatio
  violation : ∀ j, (w.violation j).toNat = (found (.violation j)).safetyViolations j

/-- What is read tells the exposition: its counters, and its other numbers to six digits. -/
structure Scrape.Tells (s : Scrape (Ieee ℚ)) (e : Exposition K) (drops : Nat) : Prop where
  count : s.count = .fin e.count
  sum : Shows s.sum (.fin e.sumUs)
  buckets : ∀ i, s.buckets i = .fin (e.buckets i)
  conditionNumber : Shows s.conditionNumber e.conditionNumber
  torqueRatio : Shows s.torqueRatio e.torqueRatio
  violations : ∀ j, s.violations j = .fin (e.safetyViolations j)
  drops : s.drops = .fin drops

theorem printed_reads {w : ScrapeWords} {found : MetricLoad → RecordedMetrics K}
    (finds : w.Finds found) (condition : ¬NegativeNan w.conditionNumber)
    (ratio : ¬NegativeNan w.torqueRatio) : ∃ s : Scrape (Ieee ℚ),
      w.printed.Reads readValue s ∧ s.Tells (metricsExposition found) w.dropped.toNat := by
  obtain ⟨sum, readSum, showsSum⟩ := readValue_sumText (K := K) w.sum
  obtain ⟨condition, readCondition, showsCondition⟩ := readValue_formatFloat (K := K) condition
  obtain ⟨ratio, readRatio, showsRatio⟩ := readValue_formatFloat (K := K) ratio
  refine ⟨⟨.fin w.samples.toNat, .fin sum, fun i => .fin (cumulativeWord (w.bucket i) i).toNat,
    condition, ratio, fun j => .fin (w.violation j).toNat, .fin w.dropped.toNat⟩, ?_, ?_⟩
  · exact {
      count := readValue_formatUint _
      sum := readSum
      buckets := fun i => readValue_formatUint _
      conditionNumber := readCondition
      torqueRatio := readRatio
      violations := fun j => readValue_formatUint _
      drops := readValue_formatUint _ }
  · have told : ∀ {n m : Nat}, n = m → (Ieee.fin (n : ℚ)) = .fin (m : ℚ) := by
      intro n m eq
      rw [eq]
    rw [finds.sum] at showsSum
    rw [finds.conditionNumber] at showsCondition
    rw [finds.torqueRatio] at showsRatio
    exact {
      count := told finds.samples
      sum := showsSum
      buckets := fun i => told ((cumulativeWord_toNat _ i).trans (cumulative_congr (finds.bucket i)))
      conditionNumber := showsCondition
      torqueRatio := showsRatio
      violations := fun j => told (finds.violation j)
      drops := rfl }

/-- A scraper gets the body of every answer whole. It reads the samples in order, counters
exactly and the rest to six digits, unless a gauge holds a NaN of negative sign, and then it
reads nothing at all. -/
theorem scrape_response_read {w : ScrapeWords} {found : MetricLoad → RecordedMetrics K}
    (finds : w.Finds found) :
    receive (metricsResponse w) = some (responseLines (metricsBody w), metricsBody w) ∧
      (NegativeNan w.conditionNumber ∨ NegativeNan w.torqueRatio →
        parse readValue (metricsBody w) = none) ∧
      (¬(NegativeNan w.conditionNumber ∨ NegativeNan w.torqueRatio) →
        ∃ s : Scrape (Ieee ℚ), parse readValue (metricsBody w) = some s.lines ∧
          s.Tells (metricsExposition found) w.dropped.toNat) := by
  rw [receive_metricsResponse, metricsBody_lines, parse_body readValue (printed_plain w)]
  refine ⟨rfl, fun unreadable => ?_, fun readable => ?_⟩
  · have unread : ∀ {name : List Char} {gauge : BitVec 32}, NegativeNan gauge →
        (Line.sample name none (formatFloat gauge)).read readValue = none := by
      intro name gauge nan
      rw [Line.read, readValue_negativeNan nan, Option.map_none]
    have condition : Line.sample "neurokinetic_condition_number".toList none
        (formatFloat w.conditionNumber) ∈ w.printed.lines := by
      simp [Scrape.lines, ScrapeWords.printed]
    have ratio : Line.sample "neurokinetic_torque_saturation_ratio".toList none
        (formatFloat w.torqueRatio) ∈ w.printed.lines := by
      simp [Scrape.lines, ScrapeWords.printed]
    rcases unreadable with nan | nan
    · exact mapM_unread condition (unread nan)
    · exact mapM_unread ratio (unread nan)
  · obtain ⟨condition, ratio⟩ := not_or.mp readable
    obtain ⟨s, reads, tells⟩ := printed_reads finds condition ratio
    exact ⟨s, reads.lines, tells⟩

/-- What a scrape finds after the slow iteration, with three drops. -/
def slowWords : ScrapeWords where
  samples := 1
  sum := 1500000
  bucket := fun _ b => if b.val = 5 then 1 else 0
  conditionNumber := 0
  torqueRatio := 0x3F800000#32
  violation := fun j => if j.val = 0 then 0 else 1
  dropped := 3

theorem slowWords_finds :
    slowWords.Finds fun _ => recordedAfter (recordAll [slowFrame]) := by
  have one : (decode 0x3F800000#32 : Ieee ℚ) = .fin 1 := by
    rw [decode]
    norm_num [infinityBits, magnitude, pow2]
  exact ⟨by decide +kernel, by decide +kernel, by decide +kernel, decode_zero, one,
    by decide +kernel⟩

/-- The same, but for a gauge that holds no number. -/
def unorderedWords : ScrapeWords := { slowWords with torqueRatio := 0xFFC00000#32 }

def unorderedRatio : KinematicTelemetryFrame ℚ := { slowFrame with maxTorqueSaturationRatio := .nan }

theorem unorderedWords_nan : NegativeNan unorderedWords.torqueRatio := by
  decide

theorem unorderedWords_finds :
    unorderedWords.Finds fun _ => recordedAfter (recordAll [unorderedRatio]) :=
  ⟨by decide +kernel, by decide +kernel, by decide +kernel, decode_zero,
    unorderedWords_nan.decode_eq, by decide +kernel⟩

theorem scrape_response_read_slow :
    (∃ s : Scrape (Ieee ℚ), parse readValue (metricsBody slowWords) = some s.lines ∧
      s.Tells (metricsExposition fun _ => recordedAfter (recordAll [slowFrame])) 3) ∧
    parse readValue (metricsBody unorderedWords) = none :=
  ⟨(scrape_response_read slowWords_finds).2.2 (by decide),
    (scrape_response_read unorderedWords_finds).2.1 (Or.inr unorderedWords_nan)⟩

end Values

section Daemon

section Gauge

variable {K : Type} [Field K] {P : Ieee K → Prop}

theorem recordedAfter_conditionNumber (start : P (.fin 0)) {updates : List (MetricUpdate K)}
    (stored : ∀ value, .conditionNumber value ∈ updates → P value) :
    P (recordedAfter updates).conditionNumber := by
  refine List.foldlRecOn (motive := fun m : RecordedMetrics K => P m.conditionNumber) updates _ start
    fun m held update member => ?_
  cases update with
  | conditionNumber value => exact stored value member
  | _ => exact held

theorem conditionNumber_mem_recordAll [LinearOrder K] [FloorSemiring K] [RoundedMul K]
    {frames : List (KinematicTelemetryFrame K)} {value : Ieee K}
    (member : .conditionNumber value ∈ recordAll frames) :
    ∃ frame ∈ frames, frame.conditionNumber = value := by
  obtain ⟨frame, among, update⟩ := List.mem_flatMap.mp member
  refine ⟨frame, among, ?_⟩
  unfold recordUpdates at update
  split_ifs at update <;> simp_all

end Gauge

variable {K : Type} [Field K] [LinearOrder K] [IsStrictOrderedRing K] [FloorRing K] [RoundedMul K]
  [SquareRoot K] [ExactSolver K]

/-- Whenever a scrape meets the records of a daemon's run, its answer is read: the condition
number as 0, and a torque ratio of at most 1 and its tolerance. -/
theorem daemon_scrapes_read (now : Int) {run : List (TimedInput K)}
    {frames : List (KinematicTelemetryFrame K)}
    (among : frames.Sublist (pushedFrames (daemonStart now) run)) (n : Nat)
    (turns : List InterleavedReads.Turn) (k : Nat) {w : ScrapeWords}
    (finds : w.Finds fun l => recordedAfter ((scrapeRun frames n turns).historyAt (k, l))) :
    ∃ (head : List (List Char)) (payload : List Char) (s : Scrape (Ieee ℚ)),
      receive (metricsResponse w) = some (head, payload) ∧
        parse readValue payload = some s.lines ∧
        s.Tells (scrapeAnswer (scrapeRun frames n turns) k) w.dropped.toNat ∧
        s.conditionNumber = .fin 0 ∧
        ∃ ratio, s.torqueRatio = .fin ratio ∧ 0 ≤ ratio ∧ ratio ≤ 1.00001 := by
  have part : ∀ l, (scrapeRun frames n turns).historyAt (k, l) <+: recordAll frames := fun l =>
    (scrapeRun_inv frames n turns).historyAt_part _
  have condition : (decode w.conditionNumber : Ieee K) = .fin 0 := by
    rw [finds.conditionNumber]
    refine recordedAfter_conditionNumber (P := (· = .fin 0)) rfl fun value stored => ?_
    obtain ⟨frame, member, rfl⟩ := conditionNumber_mem_recordAll ((part _).subset stored)
    obtain ⟨ticked, _, rfl⟩ := List.mem_map.mp (among.subset member)
    rfl
  obtain ⟨ratio, torque, low, high⟩ : ∃ ratio, (decode w.torqueRatio : Ieee K) = .fin ratio ∧
      0 ≤ ratio ∧ ratio ≤ 1.000003814697265625 := by
    rw [finds.torqueRatio]
    refine recordedAfter_torqueRatio (P := fun value => ∃ ratio, value = .fin ratio ∧ 0 ≤ ratio ∧
      ratio ≤ 1.000003814697265625) ⟨0, rfl, le_rfl, by norm_num⟩ fun value stored => ?_
    obtain ⟨frame, member, rfl⟩ := torqueRatio_mem_recordAll ((part _).subset stored)
    obtain ⟨ticked, ran, rfl⟩ := List.mem_map.mp (among.subset member)
    exact daemonTicks_ratio (daemonStart_slow now) run ticked ran
  have conditionRead : ¬NegativeNan w.conditionNumber := by
    intro nan
    rw [nan.decode_eq] at condition
    cases condition
  have torqueRead : ¬NegativeNan w.torqueRatio := by
    intro nan
    rw [nan.decode_eq] at torque
    cases torque
  obtain ⟨s, reads, tells⟩ := printed_reads finds conditionRead torqueRead
  refine ⟨_, _, s, receive_metricsResponse w, ?_, tells, ?_, ?_⟩
  · rw [metricsBody_lines, parse_body readValue (printed_plain w)]
    exact reads.lines
  · have shown := tells.conditionNumber
    have zero : (metricsExposition fun l =>
        recordedAfter ((scrapeRun frames n turns).historyAt (k, l))).conditionNumber = .fin 0 :=
      finds.conditionNumber.symm.trans condition
    rw [zero] at shown
    obtain ⟨y, eq, near⟩ := shown.fin
    rw [sub_zero, abs_zero] at near
    have none : |(y : K)| ≤ 0 := by linarith [abs_nonneg (y : K)]
    rw [eq, Rat.cast_eq_zero.mp (abs_nonpos_iff.mp none)]
  · have shown := tells.torqueRatio
    have told : (metricsExposition fun l =>
        recordedAfter ((scrapeRun frames n turns).historyAt (k, l))).torqueRatio = .fin ratio :=
      finds.torqueRatio.symm.trans torque
    rw [told] at shown
    obtain ⟨y, eq, near⟩ := shown.fin
    rw [abs_of_nonneg low] at near
    have below := neg_abs_le ((y : K) - ratio)
    have above := le_abs_self ((y : K) - ratio)
    have least : ((0 : ℚ) : K) ≤ y := by
      rw [Rat.cast_zero]
      linarith
    have most : (y : K) ≤ ((1.00001 : ℚ) : K) := by
      norm_num at high ⊢
      linarith
    exact ⟨y, eq, Rat.cast_le.mp least, Rat.cast_le.mp most⟩

end Daemon

section Torn

/-- A scrape in the middle of a record: the sample is counted and nothing else yet. -/
def tornScrapeTurns : List InterleavedReads.Turn :=
  .writer :: List.replicate (scrapes 1).length .reader

def tornWords : ScrapeWords where
  samples := 1
  sum := 0
  bucket := fun _ _ => 0
  conditionNumber := 0
  torqueRatio := 0
  violation := fun _ => 0
  dropped := 0

/-- A reader that is left alone finds all it loads at one moment. -/
theorem readers_seen {U L : Type} (made updates : List U) (loads : List L)
    (seen : List (L × List U)) :
    (InterleavedReads.Run.after ⟨made, updates, loads, seen⟩
      (List.replicate loads.length .reader)).seen = seen ++ loads.map (·, made) := by
  induction loads generalizing seen with
  | nil => exact (List.append_nil seen).symm
  | cons l rest ih =>
    rw [List.map_cons, List.append_cons]
    exact ih (seen ++ [(l, made)])

theorem torn_seen {U L : Type} (first : U) (rest : List U) (loads : List L) :
    ((InterleavedReads.Run.start (first :: rest) loads).after
      (.writer :: List.replicate loads.length .reader)).seen = loads.map (·, [first]) := by
  have seen := readers_seen [first] rest loads []
  rw [List.nil_append] at seen
  exact seen

theorem tornScrapeTurns_history (frame : KinematicTelemetryFrame ℝ) {l : MetricLoad}
    (member : l ∈ scrapeLoads) :
    (scrapeRun [frame] 1 tornScrapeTurns).historyAt (0, l) = [.sample] := by
  obtain ⟨rest, record⟩ : ∃ rest, recordAll [frame] = .sample :: rest := ⟨_, rfl⟩
  have seen : (scrapeRun [frame] 1 tornScrapeTurns).seen = (scrapes 1).map (·, [.sample]) := by
    rw [scrapeRun, record, tornScrapeTurns, torn_seen]
  have nodup : ((scrapeRun [frame] 1 tornScrapeTurns).seen.map Prod.fst).Nodup := by
    have keys : (Prod.fst ∘ fun load : Nat × MetricLoad =>
        (load, [(.sample : MetricUpdate ℝ)])) = id := rfl
    rw [seen, List.map_map, keys, List.map_id]
    exact InterleavedReads.rounds_nodup scrapeLoads_nodup 1
  have made : ((0, l), [.sample]) ∈ (scrapeRun [frame] 1 tornScrapeTurns).seen := by
    rw [seen]
    exact List.mem_map_of_mem (InterleavedReads.mem_rounds.mpr ⟨Nat.one_pos, member⟩)
  rw [InterleavedReads.Run.historyAt, InterleavedReads.lookup_eq_some nodup made, Option.getD_some]

theorem tornWords_finds (frame : KinematicTelemetryFrame ℝ) :
    tornWords.Finds fun l =>
      recordedAfter ((scrapeRun [frame] 1 tornScrapeTurns).historyAt (0, l)) := by
  refine ⟨?_, ?_, fun line b upTo => ?_, ?_, ?_, fun j => ?_⟩
  · rw [tornScrapeTurns_history frame (by decide)]
    rfl
  · rw [tornScrapeTurns_history frame (by decide)]
    rfl
  · rw [tornScrapeTurns_history frame (mem_scrapeLoads_bucket line b upTo)]
    rfl
  · rw [tornScrapeTurns_history frame (by decide)]
    exact decode_zero
  · rw [tornScrapeTurns_history frame (by decide)]
    exact decode_zero
  · rw [tornScrapeTurns_history frame (mem_scrapeLoads_violation j)]
    rfl

theorem refusedPush_pushed : [refusedPush].Sublist (pushedFrames (daemonStart 0) [refusedTick]) :=
  List.Sublist.refl _

theorem daemon_scrapes_read_torn :
    ∃ (head : List (List Char)) (payload : List Char) (s : Scrape (Ieee ℚ)),
      receive (metricsResponse tornWords) = some (head, payload) ∧
        parse readValue payload = some s.lines ∧
        s.Tells (scrapeAnswer (scrapeRun [refusedPush] 1 tornScrapeTurns) 0) tornWords.dropped.toNat ∧
        s.conditionNumber = .fin 0 ∧
        ∃ ratio, s.torqueRatio = .fin ratio ∧ 0 ≤ ratio ∧ ratio ≤ 1.00001 :=
  daemon_scrapes_read 0 refusedPush_pushed 1 tornScrapeTurns 0 (tornWords_finds refusedPush)

end Torn

end NeuroKinetic
