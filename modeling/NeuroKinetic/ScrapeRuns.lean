import NeuroKinetic.Exposition
import NeuroKinetic.Library.InterleavedReads
import Mathlib.Data.Rat.Floor

open InterleavedReads

namespace NeuroKinetic

section Program

/-- Consecutive scrapes, each load with the number of its scrape. -/
def scrapes (n : Nat) : List (Nat × MetricLoad) := rounds scrapeLoads n

theorem scrapeLoads_nodup : scrapeLoads.Nodup := by decide

theorem line_before_line : ∀ i j b : Fin 6, i < j → b ≤ i →
    [MetricLoad.bucket i b, .bucket j b].Sublist scrapeLoads := by
  decide

theorem samples_before_line : ∀ i b : Fin 6, b ≤ i →
    [MetricLoad.samples, .bucket i b].Sublist scrapeLoads := by
  decide

theorem mem_scrapeLoads_bucket : ∀ i b : Fin 6, b ≤ i → .bucket i b ∈ scrapeLoads := by decide

theorem mem_scrapeLoads_violation : ∀ j : Fin 3, .violation j ∈ scrapeLoads := by decide

end Program

section Counters

variable {K : Type}

/-- What the accesses have added to one bucket. -/
def bucketTotal (b : Fin 6) (updates : List (MetricUpdate K)) : Nat :=
  (updates.map (MetricUpdate.inBucket b)).sum

theorem weight_mono {weight : MetricUpdate K → Nat} {before after : List (MetricUpdate K)}
    (h : before <+: after) : (before.map weight).sum ≤ (after.map weight).sum := by
  obtain ⟨rest, rfl⟩ := h
  rw [List.map_append, List.sum_append]
  exact Nat.le_add_right _ _

variable [Field K] [LinearOrder K] [FloorSemiring K] [RoundedMul K]
  {frames : List (KinematicTelemetryFrame K)}

/-- Every frame is in one bucket. -/
theorem sum_bucketTotal (frames : List (KinematicTelemetryFrame K)) :
    ∑ b, bucketTotal b (recordAll frames) = frames.length := by
  induction frames with
  | nil => rfl
  | cons frame rest ih =>
    have each : ∀ b, bucketTotal b (recordAll (frame :: rest)) =
        (if loopBucket frame.loopDurationUs = b then 1 else 0) + bucketTotal b (recordAll rest) := by
      intro b
      rw [bucketTotal, recordAll, List.flatMap_cons, List.map_append, List.sum_append,
        recordUpdates_inBucket]
      rfl
    simp only [each, Finset.sum_add_distrib, ih, Finset.sum_ite_eq, Finset.mem_univ, if_true,
      List.length_cons, Nat.add_comm]

/-- A line adds up its buckets' totals, each at its own moment. -/
theorem line_eq (few : frames.length < 2 ^ 64) {history : Fin 6 → List (MetricUpdate K)}
    (part : ∀ b, history b <+: recordAll frames) (line : Fin 6) :
    cumulative (fun b => (recordedAfter (history b)).loopBuckets b) line =
      ∑ b ∈ Finset.Iic line, bucketTotal b (history b) := by
  have most : ∑ b ∈ Finset.Iic line, bucketTotal b (history b) ≤ frames.length := by
    calc ∑ b ∈ Finset.Iic line, bucketTotal b (history b)
        ≤ ∑ b ∈ Finset.Iic line, bucketTotal b (recordAll frames) :=
          Finset.sum_le_sum fun b _ => weight_mono (part b)
      _ ≤ ∑ b, bucketTotal b (recordAll frames) :=
          Finset.sum_le_sum_of_subset (Finset.subset_univ _)
      _ = frames.length := sum_bucketTotal frames
  have stored : ∀ b ∈ Finset.Iic line, (recordedAfter (history b)).loopBuckets b =
      bucketTotal b (history b) := by
    intro b inside
    have one := Finset.single_le_sum (f := fun b => bucketTotal b (history b))
      (fun _ _ => Nat.zero_le _) inside
    exact (recordedAfter_bucket b _).trans (Nat.mod_eq_of_lt ((one.trans most).trans_lt few))
  rw [cumulative_eq, Finset.sum_congr rfl stored, Nat.mod_eq_of_lt (most.trans_lt few)]

theorem violations_eq (few : frames.length < 2 ^ 64) {history : List (MetricUpdate K)}
    (part : history <+: recordAll frames) (j : Fin 3) :
    (recordedAfter history).safetyViolations j =
      (history.map (MetricUpdate.violates j)).sum := by
  have each : ∀ x ∈ frames.map fun frame => ((recordUpdates frame).map
      (MetricUpdate.violates j)).sum, x ≤ 1 := by
    intro x member
    obtain ⟨frame, _, rfl⟩ := List.mem_map.mp member
    rw [recordUpdates_violates]
    split <;> omega
  have most : (history.map (MetricUpdate.violates j)).sum ≤
      ((recordAll frames).map (MetricUpdate.violates j)).sum := weight_mono part
  have total := List.sum_le_card_nsmul _ 1 each
  rw [← recordAll_weight, List.length_map, smul_eq_mul, mul_one] at total
  rw [recordedAfter_violation, Nat.mod_eq_of_lt ((most.trans total).trans_lt few)]

theorem samples_eq (few : frames.length < 2 ^ 64) {history : List (MetricUpdate K)}
    (part : history <+: recordAll frames) :
    (recordedAfter history).loopSamples = (history.map MetricUpdate.samples).sum := by
  have most : (history.map MetricUpdate.samples).sum ≤
      ((recordAll frames).map MetricUpdate.samples).sum := weight_mono part
  rw [recordAll_samples] at most
  rw [recordedAfter_samples, Nat.mod_eq_of_lt (most.trans_lt few)]

end Counters

section Runs

variable {K : Type} [Field K] [LinearOrder K] [FloorSemiring K] [RoundedMul K]

/-- `record` over the frames against so many scrapes. -/
def scrapeRun (frames : List (KinematicTelemetryFrame K)) (n : Nat) (turns : List Turn) :
    Run (MetricUpdate K) (Nat × MetricLoad) :=
  (Run.start (recordAll frames) (scrapes n)).after turns

/-- The scrape has made all its loads. -/
def Answered (r : Run (MetricUpdate K) (Nat × MetricLoad)) (k : Nat) : Prop :=
  ∀ l ∈ scrapeLoads, (k, l) ∈ r.seen.map Prod.fst

/-- What the scrape answers. -/
def scrapeAnswer (r : Run (MetricUpdate K) (Nat × MetricLoad)) (k : Nat) : Exposition K :=
  metricsExposition fun l => recordedAfter (r.historyAt (k, l))

variable {frames : List (KinematicTelemetryFrame K)} {n k k' : Nat} {turns : List Turn}
  {l m : MetricLoad}

theorem scrapeRun_inv (frames : List (KinematicTelemetryFrame K)) (n : Nat) (turns : List Turn) :
    Inv (recordAll frames) (scrapes n) (scrapeRun frames n turns) :=
  (inv_start _ _).after turns

theorem Answered.lt (h : Answered (scrapeRun frames n turns) k) : k < n := by
  have inv := scrapeRun_inv frames n turns
  have made := h .samples List.mem_cons_self
  have part : (scrapeRun frames n turns).seen.map Prod.fst <+: scrapes n := ⟨_, inv.loads⟩
  exact (mem_rounds.mp (part.subset made)).1

theorem history_within (h : Answered (scrapeRun frames n turns) k)
    (order : [l, m].Sublist scrapeLoads) :
    (scrapeRun frames n turns).historyAt (k, l) <+: (scrapeRun frames n turns).historyAt (k, m) :=
  (scrapeRun_inv frames n turns).historyAt_mono (rounds_nodup scrapeLoads_nodup n)
    (within_round h.lt order)
    (h m (order.subset (List.mem_cons_of_mem _ List.mem_cons_self)))

theorem history_across (order : k < k') (h : Answered (scrapeRun frames n turns) k')
    (first : l ∈ scrapeLoads) (second : m ∈ scrapeLoads) :
    (scrapeRun frames n turns).historyAt (k, l) <+: (scrapeRun frames n turns).historyAt (k', m) :=
  (scrapeRun_inv frames n turns).historyAt_mono (rounds_nodup scrapeLoads_nodup n)
    (across_rounds order h.lt first second) (h m second)

theorem answer_line (few : frames.length < 2 ^ 64) (n : Nat) (turns : List Turn) (k : Nat)
    (line : Fin 6) : (scrapeAnswer (scrapeRun frames n turns) k).buckets line =
      ∑ b ∈ Finset.Iic line,
        bucketTotal b ((scrapeRun frames n turns).historyAt (k, .bucket line b)) :=
  line_eq few (fun _ => (scrapeRun_inv frames n turns).historyAt_part _) line

/-- In every interleaving of `record` with consecutive scrapes: the lines of one answer do
not fall, and nothing that an answer counts falls below an earlier answer. -/
theorem scrapes_monotone (frames : List (KinematicTelemetryFrame K))
    (few : frames.length < 2 ^ 64) (n : Nat) (turns : List Turn) :
    (∀ k, Answered (scrapeRun frames n turns) k → ∀ i j : Fin 6, i ≤ j →
      (scrapeAnswer (scrapeRun frames n turns) k).buckets i ≤
        (scrapeAnswer (scrapeRun frames n turns) k).buckets j) ∧
    ∀ k k', k < k' → Answered (scrapeRun frames n turns) k' →
      (∀ i, (scrapeAnswer (scrapeRun frames n turns) k).buckets i ≤
        (scrapeAnswer (scrapeRun frames n turns) k').buckets i) ∧
      (scrapeAnswer (scrapeRun frames n turns) k).count ≤
        (scrapeAnswer (scrapeRun frames n turns) k').count ∧
      ∀ j, (scrapeAnswer (scrapeRun frames n turns) k).safetyViolations j ≤
        (scrapeAnswer (scrapeRun frames n turns) k').safetyViolations j := by
  have part : ∀ e, (scrapeRun frames n turns).historyAt e <+: recordAll frames :=
    (scrapeRun_inv frames n turns).historyAt_part
  refine ⟨fun k answered i j order => ?_, fun k k' order answered => ⟨fun i => ?_, ?_, fun j => ?_⟩⟩
  · rw [answer_line few, answer_line few]
    rcases order.lt_or_eq with above | rfl
    · calc ∑ b ∈ Finset.Iic i, bucketTotal b ((scrapeRun frames n turns).historyAt (k, .bucket i b))
          ≤ ∑ b ∈ Finset.Iic i, bucketTotal b
              ((scrapeRun frames n turns).historyAt (k, .bucket j b)) :=
            Finset.sum_le_sum fun b inside => weight_mono (history_within answered
              (line_before_line i j b above (Finset.mem_Iic.mp inside)))
        _ ≤ _ := Finset.sum_le_sum_of_subset (Finset.Iic_subset_Iic.mpr order)
    · exact le_rfl
  · rw [answer_line few, answer_line few]
    refine Finset.sum_le_sum fun b inside => weight_mono (history_across order answered ?_ ?_) <;>
      exact mem_scrapeLoads_bucket i b (Finset.mem_Iic.mp inside)
  · refine (samples_eq few (part _)).trans_le (le_trans ?_ (samples_eq few (part _)).ge)
    exact weight_mono (history_across order answered List.mem_cons_self List.mem_cons_self)
  · refine (violations_eq few (part _) j).trans_le (le_trans ?_ (violations_eq few (part _) j).ge)
    exact weight_mono (history_across order answered (mem_scrapeLoads_violation j)
      (mem_scrapeLoads_violation j))

end Runs

section Late

/-- One slow iteration, with an error and an intervention. -/
def slowFrame : KinematicTelemetryFrame ℚ := ⟨0, .fin 1500, .fin 0, .fin 1, 6⟩

/-- Two scrapes, the second of which meets the record half way. -/
def lateTurns : List Turn :=
  List.replicate 40 .reader ++ List.replicate 4 .writer ++ List.replicate 16 .reader

theorem lateTurns_answered : Answered (scrapeRun [slowFrame] 2 lateTurns) 1 := by
  unfold Answered
  decide +kernel

theorem scrapes_monotone_late :
    (scrapeAnswer (scrapeRun [slowFrame] 2 lateTurns) 1).buckets 0 ≤
        (scrapeAnswer (scrapeRun [slowFrame] 2 lateTurns) 1).buckets 5 ∧
      (scrapeAnswer (scrapeRun [slowFrame] 2 lateTurns) 0).buckets 5 ≤
        (scrapeAnswer (scrapeRun [slowFrame] 2 lateTurns) 1).buckets 5 := by
  obtain ⟨lines, answers⟩ := scrapes_monotone [slowFrame] (by decide) 2 lateTurns
  exact ⟨lines 1 lateTurns_answered 0 5 (by decide),
    (answers 0 1 Nat.one_pos lateTurns_answered).1 5⟩

end Late

end NeuroKinetic
