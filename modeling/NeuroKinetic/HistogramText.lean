import NeuroKinetic.ScrapeText

open Binary32 OutputStream PrometheusText SignificantDigits

namespace NeuroKinetic

section Words

/-- What the loads of `prometheus_text` find of one histogram. -/
structure HistogramWords where
  sum : BitVec 64
  buckets : Fin 6 → BitVec 64

structure MetricsWords where
  histogram : MetricName → HistogramWords
  deadlineMisses : BitVec 64
  emergencyStops : BitVec 64

/-- The lambda `histogram`: one counter runs over all buckets and is printed after each. -/
def histogramText (name : List Char) (h : HistogramWords) : List Char :=
  let printed := (List.finRange 6).foldl (fun printed index =>
    let count := printed.2 + h.buckets index
    (printed.1 ++ (name ++ "_bucket\x7ble=\"".toList ++ bucketLabel index ++ "\"\x7d ".toList ++
      formatUint count ++ "\n".toList), count)) (([] : List Char), (0 : BitVec 64))
  "# TYPE ".toList ++ name ++ " histogram\n".toList ++ printed.1 ++ name ++ "_count ".toList ++
    formatUint printed.2 ++ "\n".toList ++ name ++ "_sum ".toList ++ sumText h.sum ++ "\n".toList

def prometheusBody (w : MetricsWords) : List Char :=
  histogramText "neurokinetic_loop_execution_duration_us".toList (w.histogram .loop) ++
    histogramText "neurokinetic_kinematics_solve_duration_us".toList (w.histogram .solve) ++
    "# TYPE neurokinetic_deadline_misses_total counter\nneurokinetic_deadline_misses_total ".toList ++
    formatUint w.deadlineMisses ++ "\n".toList ++
    "# TYPE neurokinetic_emergency_stops_total counter\nneurokinetic_emergency_stops_total ".toList ++
    formatUint w.emergencyStops ++ "\n".toList

end Words

section Lines

variable {α β : Type}

structure HistogramSamples (α : Type) where
  lines : Fin 6 → α
  count : α
  sum : α

structure MetricsSamples (α : Type) where
  histogram : MetricName → HistogramSamples α
  deadlineMisses : α
  emergencyStops : α

def MetricName.text : MetricName → List Char
  | .loop => "neurokinetic_loop_execution_duration_us".toList
  | .solve => "neurokinetic_kinematics_solve_duration_us".toList

def histogramLines (name : List Char) (h : HistogramSamples α) : List (Line α) :=
  .type name "histogram".toList ::
    (List.finRange 6).map (fun index =>
      .sample (name ++ "_bucket".toList) (some ("le".toList, bucketLabel index)) (h.lines index)) ++
    [.sample (name ++ "_count".toList) none h.count, .sample (name ++ "_sum".toList) none h.sum]

def MetricsSamples.lines (s : MetricsSamples α) : List (Line α) :=
  histogramLines MetricName.loop.text (s.histogram .loop) ++
    histogramLines MetricName.solve.text (s.histogram .solve) ++
    [.type "neurokinetic_deadline_misses_total".toList "counter".toList,
      .sample "neurokinetic_deadline_misses_total".toList none s.deadlineMisses,
      .type "neurokinetic_emergency_stops_total".toList "counter".toList,
      .sample "neurokinetic_emergency_stops_total".toList none s.emergencyStops]

def HistogramWords.printed (h : HistogramWords) : HistogramSamples (List Char) where
  lines := fun index => formatUint (cumulativeWord h.buckets index)
  count := formatUint (cumulativeWord h.buckets (Fin.last 5))
  sum := sumText h.sum

def MetricsWords.printed (w : MetricsWords) : MetricsSamples (List Char) where
  histogram := fun name => (w.histogram name).printed
  deadlineMisses := formatUint w.deadlineMisses
  emergencyStops := formatUint w.emergencyStops

/-- The running counter of the lambda adds up what a line of its own would. -/
theorem bucketTexts_eq (h : HistogramWords) (line : BitVec 64 → Fin 6 → List Char) :
    (List.finRange 6).foldl (fun printed index =>
      let count := printed.2 + h.buckets index
      (printed.1 ++ line count index, count)) (([] : List Char), (0 : BitVec 64)) =
    ((List.finRange 6).flatMap (fun index => line (cumulativeWord h.buckets index) index),
      cumulativeWord h.buckets (Fin.last 5)) := by
  have all : List.finRange 6 = [0, 1, 2, 3, 4, Fin.last 5] := rfl
  have first : cumulativeWord h.buckets 0 = 0 + h.buckets 0 := rfl
  have second : cumulativeWord h.buckets 1 = 0 + h.buckets 0 + h.buckets 1 := rfl
  have third : cumulativeWord h.buckets 2 = 0 + h.buckets 0 + h.buckets 1 + h.buckets 2 := rfl
  have fourth : cumulativeWord h.buckets 3 =
      0 + h.buckets 0 + h.buckets 1 + h.buckets 2 + h.buckets 3 := rfl
  have fifth : cumulativeWord h.buckets 4 =
      0 + h.buckets 0 + h.buckets 1 + h.buckets 2 + h.buckets 3 + h.buckets 4 := rfl
  have sixth : cumulativeWord h.buckets (Fin.last 5) =
      0 + h.buckets 0 + h.buckets 1 + h.buckets 2 + h.buckets 3 + h.buckets 4 +
        h.buckets (Fin.last 5) := rfl
  rw [all]
  simp only [List.foldl_cons, List.foldl_nil, List.flatMap_cons, List.flatMap_nil, first, second,
    third, fourth, fifth, sixth, List.nil_append, List.append_nil, List.append_assoc]

theorem histogramText_lines (name : List Char) (h : HistogramWords) :
    histogramText name h = body (histogramLines name h.printed) := by
  have buckets := bucketTexts_eq h fun count index =>
    name ++ "_bucket\x7ble=\"".toList ++ bucketLabel index ++ "\"\x7d ".toList ++
      formatUint count ++ "\n".toList
  unfold histogramText
  rw [buckets]
  unfold body histogramLines HistogramWords.printed
  simp only [String.reduceToList, List.flatMap_append, List.flatMap_map, List.flatMap_cons,
    List.flatMap_nil, Line.text, typeStart, labelText, List.cons_append, List.nil_append,
    List.append_assoc, List.append_nil]

set_option maxRecDepth 2000 in
theorem prometheusBody_lines (w : MetricsWords) : prometheusBody w = body w.printed.lines := by
  have loop := histogramText_lines MetricName.loop.text (w.histogram .loop)
  have solve := histogramText_lines MetricName.solve.text (w.histogram .solve)
  rw [MetricsSamples.lines, body, List.flatMap_append, List.flatMap_append]
  change _ = body (histogramLines MetricName.loop.text (w.histogram .loop).printed) ++
    body (histogramLines MetricName.solve.text (w.histogram .solve).printed) ++ _
  rw [← loop, ← solve]
  unfold prometheusBody MetricName.text MetricsWords.printed
  generalize histogramText _ (w.histogram .loop) = first
  generalize histogramText _ (w.histogram .solve) = second
  simp only [String.reduceToList, List.flatMap_cons, List.flatMap_nil, Line.text, typeStart, labelText,
    List.cons_append, List.nil_append, List.append_assoc, List.append_nil]

structure HistogramSamples.Reads (read : α → Option β) (h : HistogramSamples α)
    (told : HistogramSamples β) : Prop where
  lines : ∀ i, read (h.lines i) = some (told.lines i)
  count : read h.count = some told.count
  sum : read h.sum = some told.sum

variable {read : α → Option β}

theorem HistogramSamples.Reads.forall₂ {h : HistogramSamples α} {told : HistogramSamples β}
    (reads : h.Reads read told) (name : List Char) :
    List.Forall₂ (fun line other => line.read read = some other) (histogramLines name h)
      (histogramLines name told) := by
  unfold histogramLines
  refine List.rel_append ?_ ?_
  · refine .cons rfl (List.forall₂_map_left_iff.mpr (List.forall₂_map_right_iff.mpr ?_))
    exact List.forall₂_same.mpr fun index _ => read_sample _ _ (reads.lines index)
  · exact .cons (read_sample _ _ reads.count) (.cons (read_sample _ _ reads.sum) .nil)

theorem metricsSamples_reads {s : MetricsSamples α} {told : MetricsSamples β}
    (histogram : ∀ name, (s.histogram name).Reads read (told.histogram name))
    (misses : read s.deadlineMisses = some told.deadlineMisses)
    (stops : read s.emergencyStops = some told.emergencyStops) :
    s.lines.mapM (Line.read read) = some told.lines := by
  refine mapM_read (List.rel_append (List.rel_append ?_ ?_) ?_)
  · exact (histogram .loop).forall₂ _
  · exact (histogram .solve).forall₂ _
  · exact .cons rfl (.cons (read_sample _ _ misses) (.cons rfl (.cons (read_sample _ _ stops) .nil)))

end Lines

section Plain

theorem MetricName.text_names (name : MetricName) : Name name.text ∧
    Name (name.text ++ "_bucket".toList) ∧ Name (name.text ++ "_count".toList) ∧
      Name (name.text ++ "_sum".toList) := by
  cases name <;> decide

theorem histogramLines_plain (name : MetricName) (h : HistogramWords) :
    ∀ line ∈ histogramLines name.text h.printed, line.Plain := by
  obtain ⟨plain, bucket, count, sum⟩ := name.text_names
  rw [histogramLines]
  simp only [List.forall_mem_append, List.forall_mem_cons, List.forall_mem_map]
  refine ⟨⟨⟨plain, by decide⟩, fun index _ => ?_⟩, ?_, ?_, ?_⟩
  · exact plain_labelled bucket (by decide) (bucketLabel_plain index) (newline_not_formatUint _)
  · exact plain_bare count (newline_not_formatUint _)
  · exact plain_bare sum (newline_not_sumText _)
  · exact fun _ member => absurd member List.not_mem_nil

theorem metrics_plain (w : MetricsWords) : ∀ line ∈ w.printed.lines, line.Plain := by
  rw [MetricsSamples.lines]
  simp only [List.forall_mem_append, List.forall_mem_cons]
  refine ⟨⟨histogramLines_plain .loop _, histogramLines_plain .solve _⟩, ⟨by decide, by decide⟩,
    plain_bare (by decide) (newline_not_formatUint _), ⟨by decide, by decide⟩,
    plain_bare (by decide) (newline_not_formatUint _), ?_⟩
  exact fun _ member => absurd member List.not_mem_nil

end Plain

section Values

variable {K : Type} [Field K] [LinearOrder K] [IsStrictOrderedRing K]

/-- The words are those that loads of these metrics find. -/
structure MetricsWords.Finds (w : MetricsWords) (found : MetricsLoad → Metrics) : Prop where
  sum : ∀ name, (w.histogram name).sum.toNat = ((found (.sum name)).histograms name).sumMilliUs
  bucket : ∀ name b,
    ((w.histogram name).buckets b).toNat = ((found (.bucket name b)).histograms name).buckets b
  deadlineMisses : w.deadlineMisses.toNat = (found .deadlineMisses).deadlineMisses
  emergencyStops : w.emergencyStops.toNat = (found .emergencyStops).emergencyStops

/-- What is read of a histogram tells its lines and its count, and its sum to six digits. -/
structure HistogramSamples.Tells (told : HistogramSamples (Ieee ℚ)) (e : PrometheusHistogram K) :
    Prop where
  lines : (List.finRange 6).map told.lines = e.lines.map fun n : Nat => (.fin n : Ieee ℚ)
  count : told.count = .fin e.count
  sum : Shows told.sum (.fin e.sumUs)

/-- A scraper reads all that `prometheus_text` answers, at whatever moments its loads were
made: every line and counter exactly, the sums to six digits, and each histogram's count as
the last of its lines. -/
theorem prometheus_text_read {w : MetricsWords} {found : MetricsLoad → Metrics}
    (finds : w.Finds found) : ∃ told : MetricsSamples (Ieee ℚ),
      parse readValue (prometheusBody w) = some told.lines ∧
        (∀ name, (told.histogram name).Tells ((prometheusText (K := K) found).histogram name) ∧
          (told.histogram name).count = (told.histogram name).lines 5) ∧
        told.deadlineMisses = .fin (prometheusText (K := K) found).deadlineMisses ∧
        told.emergencyStops = .fin (prometheusText (K := K) found).emergencyStops := by
  have number : ∀ {n m : Nat}, n = m → (Ieee.fin (n : ℚ)) = .fin (m : ℚ) := by
    intro n m eq
    rw [eq]
  choose sum readSum showsSum using fun name => readValue_sumText (K := K) (w.histogram name).sum
  let told : MetricsSamples (Ieee ℚ) :=
    ⟨fun name => ⟨fun i => .fin (cumulativeWord (w.histogram name).buckets i).toNat,
      .fin (cumulativeWord (w.histogram name).buckets (Fin.last 5)).toNat, .fin (sum name)⟩,
      .fin w.deadlineMisses.toNat, .fin w.emergencyStops.toNat⟩
  have line : ∀ name i, (cumulativeWord (w.histogram name).buckets i).toNat =
      cumulative (fun b => ((found (.bucket name b)).histograms name).buckets b) i := by
    intro name i
    rw [cumulativeWord_toNat]
    exact cumulative_congr fun b _ => finds.bucket name b
  refine ⟨told, ?_, fun name => ⟨?_, rfl⟩, number finds.deadlineMisses, number finds.emergencyStops⟩
  · rw [prometheusBody_lines, parse_body readValue (metrics_plain w)]
    exact metricsSamples_reads
      (fun name => ⟨fun _ => readValue_formatUint _, readValue_formatUint _, readSum name⟩)
      (readValue_formatUint _) (readValue_formatUint _)
  · have shown := showsSum name
    rw [finds.sum] at shown
    have text : (prometheusText (K := K) found).histogram name =
        ⟨(List.finRange 6).map (cumulative fun b =>
          ((found (.bucket name b)).histograms name).buckets b),
          cumulative (fun b => ((found (.bucket name b)).histograms name).buckets b) 5,
          (((found (.sum name)).histograms name).sumMilliUs : K) / ((1000 : Nat) : K)⟩ :=
      prometheusText_eq _
    rw [text]
    refine ⟨?_, number (line name (Fin.last 5)), shown⟩
    rw [List.map_map]
    exact List.map_congr_left fun i _ => number (line name i)

/-- What the loads of one scrape find after a slow observation, counted as a miss. -/
def missedMetrics : Metrics :=
  metricsAfter (K := ℚ) [.bucket .loop (.fin 700), .sum .loop (.fin 700), .deadlineMiss]

def missedWords : MetricsWords where
  histogram := fun name =>
    match name with
    | .loop => ⟨700000, fun b => if b.val = 4 then 1 else 0⟩
    | .solve => ⟨0, fun _ => 0⟩
  deadlineMisses := 1
  emergencyStops := 0

theorem missedWords_finds : missedWords.Finds fun _ => missedMetrics := by
  refine ⟨fun name => ?_, fun name => ?_, by decide +kernel, by decide +kernel⟩
  · cases name <;> decide +kernel
  · cases name <;> decide +kernel

theorem prometheus_text_read_missed : ∃ told : MetricsSamples (Ieee ℚ),
    parse readValue (prometheusBody missedWords) = some told.lines ∧
      (∀ name, (told.histogram name).Tells
          ((prometheusText (K := ℚ) fun _ => missedMetrics).histogram name) ∧
        (told.histogram name).count = (told.histogram name).lines 5) ∧
      told.deadlineMisses = .fin (prometheusText (K := ℚ) fun _ => missedMetrics).deadlineMisses ∧
      told.emergencyStops = .fin (prometheusText (K := ℚ) fun _ => missedMetrics).emergencyStops :=
  prometheus_text_read missedWords_finds

end Values

end NeuroKinetic
