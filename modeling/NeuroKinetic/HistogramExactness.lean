import NeuroKinetic.Exposition
import Mathlib.Data.Rat.Floor
import Mathlib.Tactic.Positivity

namespace NeuroKinetic

section Metrics

/-- One histogram of `Metrics`: its buckets and its sum. -/
structure MetricsHistogram where
  buckets : Fin 6 → Nat
  sumMilliUs : Nat

def MetricsHistogram.start : MetricsHistogram := ⟨fun _ => 0, 0⟩

/-- What `prometheus_text` prints of a histogram: its bucket lines, count and sum. -/
structure PrometheusHistogram (K : Type) where
  lines : List Nat
  count : Nat
  sumUs : K

variable {K : Type} [Field K] [LinearOrder K]

def observeLimits : List Nat := [50, 100, 250, 500, 1000]

def observeBucket (value : Ieee K) : Fin 6 :=
  ⟨observeLimits.findIdx fun limit : Nat => decide (value ≤ .fin (limit : K)),
    Nat.lt_succ_of_le List.findIdx_le_length⟩

/-- `std::max(0.0, value)`. -/
def maxZero (value : Ieee K) : Ieee K := if .fin 0 < value then value else .fin 0

def MetricsHistogram.observe [FloorSemiring K] [RoundedMul K] (h : MetricsHistogram) (value : Ieee K) :
    MetricsHistogram where
  buckets :=
    Function.update h.buckets (observeBucket value) (fetchAdd (h.buckets (observeBucket value)) 1)
  sumMilliUs := fetchAdd h.sumMilliUs
    (toUint64 (RoundedMul.double (maxZero value) (.fin ((1000 : Nat) : K))))

/-- One counter runs over all buckets and is printed after each. -/
def MetricsHistogram.prometheusText (h : MetricsHistogram) : PrometheusHistogram K :=
  let printed := (List.finRange 6).foldl (fun printed index =>
    let count := (printed.2 + h.buckets index) % 2 ^ 64
    (printed.1 ++ [count], count)) (([] : List Nat), 0)
  ⟨printed.1, printed.2, (h.sumMilliUs : K) / ((1000 : Nat) : K)⟩

omit [LinearOrder K] in
/-- Both loops over the buckets print the same lines. -/
theorem prometheusText_eq (h : MetricsHistogram) : h.prometheusText (K := K) =
    ⟨(List.finRange 6).map (cumulative h.buckets), cumulative h.buckets 5,
      (h.sumMilliUs : K) / ((1000 : Nat) : K)⟩ := rfl

theorem recordUpdates_histogram [FloorSemiring K] [RoundedMul K] (m : RecordedMetrics K)
    (frame : KinematicTelemetryFrame K) :
    ((recordUpdates frame).foldl MetricUpdate.apply m).loopBuckets =
        Function.update m.loopBuckets (loopBucket frame.loopDurationUs)
          (fetchAdd (m.loopBuckets (loopBucket frame.loopDurationUs)) 1) ∧
      ((recordUpdates frame).foldl MetricUpdate.apply m).loopSumUs =
        fetchAdd m.loopSumUs
          (toUint64 (RoundedMul.single frame.loopDurationUs (.fin ((1000 : Nat) : K)))) := by
  unfold recordUpdates
  split_ifs <;> exact ⟨rfl, rfl⟩

/-- `observe` keeps the buckets and the sum that `record` keeps. -/
theorem observe_recorded [FloorSemiring K] [ExactMul K] (frames : List (KinematicTelemetryFrame K))
    (nonneg : ∀ frame ∈ frames, ∃ d, frame.loopDurationUs = .fin d ∧ 0 ≤ d) :
    (frames.map KinematicTelemetryFrame.loopDurationUs).foldl MetricsHistogram.observe
        MetricsHistogram.start =
      ⟨(recordedAfter (recordAll frames)).loopBuckets,
        (recordedAfter (recordAll frames)).loopSumUs⟩ := by
  induction frames using List.reverseRecOn with
  | nil => rfl
  | append_singleton frames frame ih =>
    have earlier := ih fun f member => nonneg f (List.mem_append_left _ member)
    obtain ⟨d, duration, sign⟩ := nonneg frame (List.mem_append_right _ List.mem_cons_self)
    have same : maxZero (.fin d : Ieee K) = .fin d := by
      unfold maxZero
      split
      next => rfl
      next notPositive =>
        rw [Ieee.fin_lt_fin, not_lt] at notPositive
        rw [le_antisymm notPositive sign]
    have split : recordedAfter (recordAll (frames ++ [frame])) =
        (recordUpdates frame).foldl MetricUpdate.apply (recordedAfter (recordAll frames)) := by
      simp only [recordedAfter, recordAll, List.flatMap_append, List.flatMap_singleton,
        List.foldl_append]
    obtain ⟨buckets, sum⟩ := recordUpdates_histogram (recordedAfter (recordAll frames)) frame
    rw [List.map_append, List.foldl_append, earlier, split, buckets, sum, duration]
    simp only [List.map_cons, List.map_nil, List.foldl_cons, List.foldl_nil, duration,
      MetricsHistogram.observe, same, ExactMul.single_eq, ExactMul.double_eq]
    rfl

end Metrics

section Bounds

variable {K : Type} [Field K] [LinearOrder K]

theorem loopBounds_sorted : loopBounds.Pairwise (· ≤ ·) := by decide

/-- A duration is placed at a bound or below it if and only if it does not exceed it. -/
theorem loopBucket_le_iff [IsStrictOrderedRing K] (d : K) (i : Fin 5) :
    loopBucket (.fin d) ≤ i.castSucc ↔ d ≤ (loopBounds[i] : K) := by
  have inside : i.val < loopBounds.length := i.isLt
  let within : Nat → Bool := fun bound => decide ((.fin d : Ieee K) ≤ .fin (bound : K))
  have within_iff : ∀ bound : Nat, within bound = true ↔ d ≤ (bound : K) := fun bound =>
    decide_eq_true_iff.trans Ieee.fin_le_fin
  have place : (loopBucket (.fin d : Ieee K)).val = loopBounds.findIdx within := rfl
  rw [Fin.le_def, place]
  constructor
  · intro early
    have found : loopBounds.findIdx within < loopBounds.length := lt_of_le_of_lt early inside
    have least := (within_iff _).mp (List.findIdx_getElem (w := found))
    have ordered : loopBounds[loopBounds.findIdx within] ≤ loopBounds[i] := by
      rcases Nat.lt_or_eq_of_le early with before | same
      · exact List.pairwise_iff_getElem.mp loopBounds_sorted _ _ found inside before
      · exact le_of_eq (List.getElem_of_eq rfl _ |>.trans (by simp only [same]; rfl))
    exact least.trans (Nat.cast_le.mpr ordered)
  · intro low
    by_contra late
    have outside : within loopBounds[i] = false := List.not_of_lt_findIdx (not_le.mp late)
    rw [(within_iff _).mpr low] at outside
    cases outside

end Bounds

section Counts

variable {α : Type}

theorem sum_indicator (p : α → Prop) [DecidablePred p] (l : List α) :
    (l.map fun a => if p a then 1 else 0).sum = l.countP fun a => p a := by
  induction l with
  | nil => rfl
  | cons a rest ih =>
    rw [List.map_cons, List.sum_cons, ih, List.countP_cons, Nat.add_comm]
    simp only [decide_eq_true_eq]

theorem sum_countP_fiber {β : Type} [DecidableEq β] (place : α → β) (s : Finset β) (l : List α) :
    ∑ b ∈ s, (l.countP fun a => place a = b) = l.countP fun a => place a ∈ s := by
  induction l with
  | nil => simp
  | cons a rest ih =>
    simp only [List.countP_cons, Finset.sum_add_distrib, ih, decide_eq_true_eq,
      Finset.sum_ite_eq]

end Counts

section Quiescent

variable {K : Type} [Field K] [LinearOrder K] [FloorSemiring K] [RoundedMul K]

/-- What a scrape answers between two records. -/
def quiescentExposition (frames : List (KinematicTelemetryFrame K)) : Exposition K :=
  metricsExposition fun _ => recordedAfter (recordAll frames)

variable {frames : List (KinematicTelemetryFrame K)}

theorem quiescent_count (few : frames.length < 2 ^ 64) :
    (quiescentExposition frames).count = frames.length := by
  have samples := recordedAfter_samples (recordAll frames)
  rw [recordAll_samples, Nat.mod_eq_of_lt few] at samples
  exact samples

theorem quiescent_violations (few : frames.length < 2 ^ 64) (j : Fin 3) :
    (quiescentExposition frames).safetyViolations j =
      frames.countP fun frame => frame.safetyFlags &&& 2 ^ j.val ≠ 0 := by
  have violations := recordedAfter_violation j (recordAll frames)
  simp only [recordAll_weight, recordUpdates_violates] at violations
  rw [sum_indicator, Nat.mod_eq_of_lt (List.countP_le_length.trans_lt few)] at violations
  exact violations

/-- A line counts the frames whose bucket it reaches. -/
theorem quiescent_line (few : frames.length < 2 ^ 64) (line : Fin 6) :
    (quiescentExposition frames).buckets line =
      frames.countP fun frame => loopBucket frame.loopDurationUs ≤ line := by
  have bucket : ∀ b, (recordedAfter (recordAll frames)).loopBuckets b =
      frames.countP fun frame => loopBucket frame.loopDurationUs = b := by
    intro b
    have stored := recordedAfter_bucket b (recordAll frames)
    simp only [recordAll_weight, recordUpdates_inBucket] at stored
    rw [sum_indicator, Nat.mod_eq_of_lt (List.countP_le_length.trans_lt few)] at stored
    exact stored
  have fibers := sum_countP_fiber
    (fun frame : KinematicTelemetryFrame K => loopBucket frame.loopDurationUs) (Finset.Iic line)
    frames
  simp only [Finset.mem_Iic] at fibers
  have total := cumulative_eq (recordedAfter (recordAll frames)).loopBuckets line
  rw [Finset.sum_congr rfl fun b _ => bucket b, fibers,
    Nat.mod_eq_of_lt (List.countP_le_length.trans_lt few)] at total
  exact total

end Quiescent

section Exact

variable {K : Type} [Field K] [LinearOrder K] [FloorSemiring K]

/-- A duration in whole thousandths of a microsecond. -/
def milliUs (d : K) : Nat := ⌊d * ((1000 : Nat) : K)⌋₊

variable [IsStrictOrderedRing K] {durations : List K}

theorem milliUs_bounds (nonneg : ∀ d ∈ durations, 0 ≤ d) :
    (((durations.map milliUs).sum : Nat) : K) ≤ durations.sum * ((1000 : Nat) : K) ∧
      durations.sum * ((1000 : Nat) : K) ≤
        (((durations.map milliUs).sum : Nat) : K) + (durations.length : K) ∧
      (durations ≠ [] → durations.sum * ((1000 : Nat) : K) <
        (((durations.map milliUs).sum : Nat) : K) + (durations.length : K)) := by
  induction durations with
  | nil => simp
  | cons d rest ih =>
    obtain ⟨low, high, _⟩ := ih fun e member => nonneg e (List.mem_cons_of_mem d member)
    have floor : ((milliUs d : Nat) : K) ≤ d * ((1000 : Nat) : K) :=
      Nat.floor_le (mul_nonneg (nonneg d List.mem_cons_self) (Nat.cast_nonneg 1000))
    have above : d * ((1000 : Nat) : K) < ((milliUs d : Nat) : K) + 1 := Nat.lt_floor_add_one _
    have strict : (d :: rest).sum * ((1000 : Nat) : K) <
        ((((d :: rest).map milliUs).sum : Nat) : K) + ((d :: rest).length : K) := by
      rw [List.sum_cons, add_mul, List.map_cons, List.sum_cons, Nat.cast_add, List.length_cons,
        Nat.cast_succ rest.length]
      refine (add_lt_add_of_lt_of_le above high).trans_eq ?_
      ring
    refine ⟨?_, strict.le, fun _ => strict⟩
    rw [List.sum_cons, add_mul, List.map_cons, List.sum_cons, Nat.cast_add]
    exact add_le_add floor low

variable [ExactMul K] {frames : List (KinematicTelemetryFrame K)}

theorem quiescent_sum (finite : frames.map KinematicTelemetryFrame.loopDurationUs =
      durations.map .fin) (nonneg : ∀ d ∈ durations, 0 ≤ d)
    (fits : (durations.map milliUs).sum < 2 ^ 64) :
    (quiescentExposition frames).sumUs ≤ durations.sum ∧ (frames ≠ [] →
      durations.sum < (quiescentExposition frames).sumUs + frames.length / ((1000 : Nat) : K)) := by
  have many : frames.length = durations.length := by
    simpa using congrArg List.length finite
  have stored := recordedAfter_sum (recordAll frames)
  have each : (frames.map fun frame =>
      toUint64 (RoundedMul.single frame.loopDurationUs (.fin ((1000 : Nat) : K)))) =
        durations.map milliUs := by
    have mapped := congrArg
      (List.map fun x => toUint64 (RoundedMul.single x (.fin ((1000 : Nat) : K)))) finite
    rw [List.map_map, List.map_map] at mapped
    exact mapped.trans (List.map_congr_left fun d _ => congrArg toUint64 (ExactMul.single_eq _ _))
  simp only [recordAll_weight, recordUpdates_milliUs] at stored
  rw [each, Nat.mod_eq_of_lt fits] at stored
  have thousand : (0 : K) < ((1000 : Nat) : K) := Nat.cast_pos.mpr (by norm_num)
  have value : (quiescentExposition frames).sumUs =
      (((durations.map milliUs).sum : Nat) : K) / ((1000 : Nat) : K) := by
    rw [← stored]
    rfl
  obtain ⟨low, _, high⟩ := milliUs_bounds nonneg
  rw [value, many]
  refine ⟨(div_le_iff₀ thousand).mpr low, fun some => ?_⟩
  have nonempty : durations ≠ [] := by
    rintro rfl
    exact some (List.map_eq_nil_iff.mp finite)
  rw [← add_div, lt_div_iff₀ thousand]
  exact high nonempty

/-- Between two records a scrape counts the recorded frames exactly, and `Metrics` fed the
same durations prints the same lines, count and sum. -/
theorem histogram_exact (durations : List K)
    (finite : frames.map KinematicTelemetryFrame.loopDurationUs = durations.map .fin)
    (nonneg : ∀ d ∈ durations, 0 ≤ d) (few : frames.length < 2 ^ 64) :
    (∀ i : Fin 5, (quiescentExposition frames).buckets i.castSucc =
        durations.countP fun d => d ≤ (loopBounds[i] : K)) ∧
      (quiescentExposition frames).buckets 5 = frames.length ∧
      (quiescentExposition frames).count = frames.length ∧
      ((durations.map milliUs).sum < 2 ^ 64 →
        (quiescentExposition frames).sumUs ≤ durations.sum ∧ (frames ≠ [] → durations.sum <
          (quiescentExposition frames).sumUs + frames.length / ((1000 : Nat) : K))) ∧
      (∀ j : Fin 3, (quiescentExposition frames).safetyViolations j =
        frames.countP fun frame => frame.safetyFlags &&& 2 ^ j.val ≠ 0) ∧
      MetricsHistogram.prometheusText
          ((durations.map .fin).foldl MetricsHistogram.observe MetricsHistogram.start) =
        ⟨(List.finRange 6).map (quiescentExposition frames).buckets,
          (quiescentExposition frames).count, (quiescentExposition frames).sumUs⟩ := by
  have each : ∀ frame ∈ frames, ∃ d, frame.loopDurationUs = .fin d ∧ 0 ≤ d := by
    intro frame member
    have mapped : frame.loopDurationUs ∈ durations.map .fin := by
      rw [← finite]
      exact List.mem_map_of_mem member
    obtain ⟨d, inside, eq⟩ := List.mem_map.mp mapped
    exact ⟨d, eq.symm, nonneg d inside⟩
  have whole : (quiescentExposition frames).buckets 5 = frames.length := by
    rw [quiescent_line few, List.countP_eq_length]
    exact fun frame _ => decide_eq_true (Fin.le_last _)
  refine ⟨fun i => ?_, whole, quiescent_count few, quiescent_sum finite nonneg,
    quiescent_violations few, ?_⟩
  · have lines := congrArg (List.countP fun x => loopBucket x ≤ i.castSucc) finite
    rw [List.countP_map, List.countP_map] at lines
    rw [quiescent_line few]
    refine lines.trans ?_
    simp only [Function.comp_def, loopBucket_le_iff]
  · rw [← finite, observe_recorded frames each, prometheusText_eq]
    have counts : cumulative (recordedAfter (recordAll frames)).loopBuckets 5 =
        (quiescentExposition frames).count := whole.trans (quiescent_count few).symm
    rw [counts]
    rfl

/-- Three frames: on a bound, past the last one, and one with two flags. -/
def scrapedFrames : List (KinematicTelemetryFrame ℚ) :=
  [⟨0, .fin 50, .fin 0, .fin 0, 0⟩, ⟨1, .fin 2000, .fin 0, .fin 0, 0⟩,
    ⟨2, .fin 49, .fin 0, .fin 0, 5⟩]

theorem histogram_exact_three :
    (quiescentExposition scrapedFrames).buckets 5 = scrapedFrames.length ∧
      (quiescentExposition scrapedFrames).count = scrapedFrames.length := by
  have few : scrapedFrames.length < 2 ^ 64 := by decide
  have counted := histogram_exact [50, 2000, 49] rfl (by simp) few
  exact ⟨counted.2.1, counted.2.2.1⟩

/-- Two frames whose thousandths together are one more than the counter of the sum holds. -/
def longFrames : List (KinematicTelemetryFrame ℚ) :=
  [⟨0, .fin (2 ^ 63 / 1000), .fin 0, .fin 0, 0⟩, ⟨1, .fin (2 ^ 63 / 1000), .fin 0, .fin 0, 0⟩]

/-- The sum starts again at zero. -/
theorem histogram_sum_wraps :
    longFrames.length < 2 ^ 64 ∧
      ¬([2 ^ 63 / 1000, 2 ^ 63 / 1000] : List ℚ).sum <
        (quiescentExposition longFrames).sumUs + longFrames.length / ((1000 : Nat) : ℚ) := by
  have wrapped : (quiescentExposition longFrames).sumUs = 0 := by
    decide +kernel
  have length : longFrames.length = 2 := rfl
  refine ⟨by rw [length]; norm_num, ?_⟩
  rw [wrapped, length]
  norm_num

end Exact

end NeuroKinetic
