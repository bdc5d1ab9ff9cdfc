import NeuroKinetic.TelemetryWorker
import Mathlib.Algebra.BigOperators.Fin
import Mathlib.Order.Interval.Finset.Fin

namespace NeuroKinetic

/-- One atomic load of a scrape; a bucket is loaded again for every line it adds to. -/
inductive MetricLoad where
  | samples
  | sum
  | bucket (line index : Fin 6)
  | conditionNumber
  | torqueRatio
  | violation (index : Fin 3)
  deriving DecidableEq

/-- The loads of one scrape, in program order. -/
def scrapeLoads : List MetricLoad :=
  [.samples, .sum] ++
  (List.finRange 6).flatMap (fun line =>
    ((List.finRange 6).filter (· ≤ line)).map (.bucket line)) ++
  [.conditionNumber, .torqueRatio] ++ (List.finRange 3).map .violation

/-- The numbers of the exposition, before they become text; a bucket by its line. -/
structure Exposition (K : Type) where
  count : Nat
  sumUs : K
  buckets : Fin 6 → Nat
  conditionNumber : Ieee K
  torqueRatio : Ieee K
  safetyViolations : Fin 3 → Nat

/-- The inner loop of one line: `cumulative += bucket`. -/
def cumulative (buckets : Fin 6 → Nat) (line : Fin 6) : Nat :=
  ((List.finRange 6).filter (· ≤ line)).foldl (fun sum b => (sum + buckets b) % 2 ^ 64) 0

section Scrape

variable {K : Type} [Field K]

/-- What `metrics_loop` answers, where each of its loads finds counters of its own moment. -/
def metricsExposition (found : MetricLoad → RecordedMetrics K) : Exposition K where
  count := (found .samples).loopSamples
  sumUs := ((found .sum).loopSumUs : K) / ((1000 : Nat) : K)
  buckets := fun line => cumulative (fun b => (found (.bucket line b)).loopBuckets b) line
  conditionNumber := (found .conditionNumber).conditionNumber
  torqueRatio := (found .torqueRatio).torqueRatio
  safetyViolations := fun j => (found (.violation j)).safetyViolations j

/-- The counters after that many accesses of `record`. -/
def recordedAfter (updates : List (MetricUpdate K)) : RecordedMetrics K :=
  updates.foldl MetricUpdate.apply RecordedMetrics.start

end Scrape

section Cumulative

theorem foldl_add_mod (f : Fin 6 → Nat) (l : List (Fin 6)) (start : Nat) :
    l.foldl (fun sum b => (sum + f b) % 2 ^ 64) (start % 2 ^ 64) =
      (start + (l.map f).sum) % 2 ^ 64 := by
  induction l generalizing start with
  | nil => rfl
  | cons b rest ih =>
    rw [List.foldl_cons, Nat.mod_add_mod, ih, List.map_cons, List.sum_cons, Nat.add_assoc]

theorem cumulative_eq (buckets : Fin 6 → Nat) (line : Fin 6) :
    cumulative buckets line = (∑ b ∈ Finset.Iic line, buckets b) % 2 ^ 64 := by
  have upTo : ((List.finRange 6).filter (· ≤ line)).toFinset = Finset.Iic line := by
    ext b
    simp
  have nodup : ((List.finRange 6).filter (· ≤ line)).Nodup := (List.nodup_finRange 6).filter _
  have total := List.sum_toFinset buckets nodup
  rw [upTo] at total
  have fold := foldl_add_mod buckets ((List.finRange 6).filter (· ≤ line)) 0
  rw [Nat.zero_add] at fold
  rw [cumulative, total, ← fold]
  rfl

end Cumulative

section Counters

variable {K : Type}

/-- What an access adds to one counter. -/
def MetricUpdate.samples : MetricUpdate K → Nat
  | .sample => 1
  | _ => 0

def MetricUpdate.inBucket (b : Fin 6) : MetricUpdate K → Nat
  | .bucket index => if index = b then 1 else 0
  | _ => 0

def MetricUpdate.milliUs : MetricUpdate K → Nat
  | .sum milliUs => milliUs
  | _ => 0

def MetricUpdate.violates (j : Fin 3) : MetricUpdate K → Nat
  | .violation index => if index = j then 1 else 0
  | _ => 0

variable {m : RecordedMetrics K} {n : Nat}

theorem MetricUpdate.apply_samples (h : m.loopSamples = n % 2 ^ 64) (update : MetricUpdate K) :
    (update.apply m).loopSamples = (n + update.samples) % 2 ^ 64 := by
  cases update with
  | sample =>
    simp only [MetricUpdate.apply, MetricUpdate.samples, fetchAdd, h]
    exact Nat.mod_add_mod _ _ _
  | _ => exact h

theorem MetricUpdate.apply_inBucket {b : Fin 6} (h : m.loopBuckets b = n % 2 ^ 64)
    (update : MetricUpdate K) :
    (update.apply m).loopBuckets b = (n + update.inBucket b) % 2 ^ 64 := by
  cases update with
  | bucket index =>
    by_cases here : index = b
    · subst here
      simp only [MetricUpdate.apply, MetricUpdate.inBucket, fetchAdd, Function.update_self, h, if_true]
      exact Nat.mod_add_mod _ _ _
    · simp only [MetricUpdate.apply, MetricUpdate.inBucket, if_neg here]
      rw [Function.update_of_ne (Ne.symm here)]
      exact h
  | _ => exact h

theorem MetricUpdate.apply_milliUs (h : m.loopSumUs = n % 2 ^ 64) (update : MetricUpdate K) :
    (update.apply m).loopSumUs = (n + update.milliUs) % 2 ^ 64 := by
  cases update with
  | sum milliUs =>
    simp only [MetricUpdate.apply, MetricUpdate.milliUs, fetchAdd, h]
    exact Nat.mod_add_mod _ _ _
  | _ => exact h

theorem MetricUpdate.apply_violates {j : Fin 3} (h : m.safetyViolations j = n % 2 ^ 64)
    (update : MetricUpdate K) :
    (update.apply m).safetyViolations j = (n + update.violates j) % 2 ^ 64 := by
  cases update with
  | violation index =>
    by_cases here : index = j
    · subst here
      simp only [MetricUpdate.apply, MetricUpdate.violates, fetchAdd, Function.update_self, h, if_true]
      exact Nat.mod_add_mod _ _ _
    · simp only [MetricUpdate.apply, MetricUpdate.violates, if_neg here]
      rw [Function.update_of_ne (Ne.symm here)]
      exact h
  | _ => exact h

variable [Field K] (counter : RecordedMetrics K → Nat) {weight : MetricUpdate K → Nat}

/-- A counter holds, at its width, what the accesses have added to it. -/
theorem counter_recordedAfter (zero : counter RecordedMetrics.start = 0)
    (adds : ∀ {m n}, counter m = n % 2 ^ 64 → ∀ update : MetricUpdate K,
      counter (update.apply m) = (n + weight update) % 2 ^ 64)
    (updates : List (MetricUpdate K)) :
    counter (recordedAfter updates) = (updates.map weight).sum % 2 ^ 64 := by
  induction updates using List.reverseRecOn with
  | nil => exact zero
  | append_singleton updates update ih =>
    rw [recordedAfter, List.foldl_append, List.map_append, List.sum_append]
    exact adds ih update

theorem recordedAfter_samples (updates : List (MetricUpdate K)) :
    (recordedAfter updates).loopSamples = (updates.map MetricUpdate.samples).sum % 2 ^ 64 :=
  counter_recordedAfter RecordedMetrics.loopSamples rfl MetricUpdate.apply_samples updates

theorem recordedAfter_sum (updates : List (MetricUpdate K)) :
    (recordedAfter updates).loopSumUs = (updates.map MetricUpdate.milliUs).sum % 2 ^ 64 :=
  counter_recordedAfter RecordedMetrics.loopSumUs rfl MetricUpdate.apply_milliUs updates

theorem recordedAfter_bucket (b : Fin 6) (updates : List (MetricUpdate K)) :
    (recordedAfter updates).loopBuckets b =
      (updates.map (MetricUpdate.inBucket b)).sum % 2 ^ 64 :=
  counter_recordedAfter (fun m => m.loopBuckets b) rfl MetricUpdate.apply_inBucket updates

theorem recordedAfter_violation (j : Fin 3) (updates : List (MetricUpdate K)) :
    (recordedAfter updates).safetyViolations j =
      (updates.map (MetricUpdate.violates j)).sum % 2 ^ 64 :=
  counter_recordedAfter (fun m => m.safetyViolations j) rfl MetricUpdate.apply_violates updates

end Counters

section Frames

variable {K : Type} [Field K] [LinearOrder K] [FloorSemiring K] [RoundedMul K]

/-- The accesses of `record` over a sequence of frames. -/
def recordAll (frames : List (KinematicTelemetryFrame K)) : List (MetricUpdate K) :=
  frames.flatMap recordUpdates

theorem recordAll_weight (weight : MetricUpdate K → Nat)
    (frames : List (KinematicTelemetryFrame K)) :
    ((recordAll frames).map weight).sum =
      (frames.map fun frame => ((recordUpdates frame).map weight).sum).sum := by
  induction frames with
  | nil => rfl
  | cons frame rest ih =>
    rw [recordAll, List.flatMap_cons, List.map_append, List.sum_append, List.map_cons,
      List.sum_cons]
    exact congrArg _ ih

/-- `record` counts its frame once. -/
theorem recordUpdates_samples (frame : KinematicTelemetryFrame K) :
    ((recordUpdates frame).map MetricUpdate.samples).sum = 1 := by
  unfold recordUpdates
  split_ifs <;> rfl

theorem recordUpdates_inBucket (b : Fin 6) (frame : KinematicTelemetryFrame K) :
    ((recordUpdates frame).map (MetricUpdate.inBucket b)).sum =
      if loopBucket frame.loopDurationUs = b then 1 else 0 := by
  unfold recordUpdates
  split_ifs <;> simp_all [MetricUpdate.inBucket]

theorem recordUpdates_milliUs (frame : KinematicTelemetryFrame K) :
    ((recordUpdates frame).map MetricUpdate.milliUs).sum =
      toUint64 (RoundedMul.single frame.loopDurationUs (.fin ((1000 : Nat) : K))) := by
  unfold recordUpdates
  split_ifs <;> simp [MetricUpdate.milliUs]

theorem recordUpdates_violates (j : Fin 3) (frame : KinematicTelemetryFrame K) :
    ((recordUpdates frame).map (MetricUpdate.violates j)).sum =
      if frame.safetyFlags &&& 2 ^ j.val ≠ 0 then 1 else 0 := by
  by_cases silent : frame.safetyFlags = 0
  · simp [recordUpdates, silent, MetricUpdate.violates]
  · unfold recordUpdates
    rw [if_pos silent]
    fin_cases j <;> split_ifs <;> simp_all [MetricUpdate.violates]

theorem recordAll_samples (frames : List (KinematicTelemetryFrame K)) :
    ((recordAll frames).map MetricUpdate.samples).sum = frames.length := by
  rw [recordAll_weight]
  simp only [recordUpdates_samples, List.map_const', List.sum_replicate, smul_eq_mul, mul_one]

end Frames

end NeuroKinetic
