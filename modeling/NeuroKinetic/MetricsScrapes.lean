import NeuroKinetic.HistogramExactness
import NeuroKinetic.Library.ConcurrentWriters

open InterleavedReads

namespace NeuroKinetic

section Accesses

/-- The two histograms of `Metrics`. -/
inductive MetricName where
  | loop
  | solve
  deriving DecidableEq, Repr

structure Metrics where
  histograms : MetricName → MetricsHistogram
  deadlineMisses : Nat
  emergencyStops : Nat

def Metrics.start : Metrics := ⟨fun _ => MetricsHistogram.start, 0, 0⟩

def Metrics.setHistogram (m : Metrics) (name : MetricName) (h : MetricsHistogram) : Metrics :=
  { m with histograms := Function.update m.histograms name h }

@[simp] theorem Metrics.setHistogram_self (m : Metrics) (name : MetricName) (h : MetricsHistogram) :
    (m.setHistogram name h).histograms name = h := Function.update_self _ _ _

theorem Metrics.setHistogram_of_ne (m : Metrics) {name other : MetricName} (h : MetricsHistogram)
    (differ : other ≠ name) : (m.setHistogram name h).histograms other = m.histograms other :=
  Function.update_of_ne differ _ _

inductive MetricsCall (K : Type) where
  | observe (name : MetricName) (value : Ieee K)
  | incrementDeadlineMisses
  | incrementEmergencyStops

/-- One atomic addition of a call; an observation makes two. -/
inductive MetricsAccess (K : Type) where
  | bucket (name : MetricName) (value : Ieee K)
  | sum (name : MetricName) (value : Ieee K)
  | deadlineMiss
  | emergencyStop

def MetricsCall.accesses {K : Type} : MetricsCall K → List (MetricsAccess K)
  | .observe name value => [.bucket name value, .sum name value]
  | .incrementDeadlineMisses => [.deadlineMiss]
  | .incrementEmergencyStops => [.emergencyStop]

/-- One load of `prometheus_text`. -/
inductive MetricsLoad where
  | sum (name : MetricName)
  | bucket (name : MetricName) (b : Fin 6)
  | deadlineMisses
  | emergencyStops
  deriving DecidableEq

/-- The loads in program order: a histogram's sum is an argument and loaded before its buckets. -/
def prometheusLoads : List MetricsLoad :=
  [MetricName.loop, .solve].flatMap
      (fun name => .sum name :: (List.finRange 6).map (MetricsLoad.bucket name)) ++
    [.deadlineMisses, .emergencyStops]

structure MetricsText (K : Type) where
  histogram : MetricName → PrometheusHistogram K
  deadlineMisses : Nat
  emergencyStops : Nat

variable {K : Type} [Field K]

/-- What `prometheus_text` prints, where each of its loads finds the metrics of its own moment. -/
def prometheusText (found : MetricsLoad → Metrics) : MetricsText K where
  histogram := fun name => MetricsHistogram.prometheusText
    ⟨fun b => ((found (.bucket name b)).histograms name).buckets b,
      ((found (.sum name)).histograms name).sumMilliUs⟩
  deadlineMisses := (found .deadlineMisses).deadlineMisses
  emergencyStops := (found .emergencyStops).emergencyStops

variable [LinearOrder K] [FloorSemiring K] [RoundedMul K]

def milliUsOf (value : Ieee K) : Nat :=
  toUint64 (RoundedMul.double (maxZero value) (.fin ((1000 : Nat) : K)))

def MetricsAccess.apply (m : Metrics) : MetricsAccess K → Metrics
  | .bucket name value =>
    let h := m.histograms name
    let index := observeBucket value
    m.setHistogram name
      { h with buckets := Function.update h.buckets index (fetchAdd (h.buckets index) 1) }
  | .sum name value =>
    let h := m.histograms name
    m.setHistogram name { h with sumMilliUs := fetchAdd h.sumMilliUs (milliUsOf value) }
  | .deadlineMiss => { m with deadlineMisses := fetchAdd m.deadlineMisses 1 }
  | .emergencyStop => { m with emergencyStops := fetchAdd m.emergencyStops 1 }

/-- The two accesses of an observation make up `observe`. -/
theorem accesses_observe (m : Metrics) (name : MetricName) (value : Ieee K) :
    (MetricsCall.observe name value).accesses.foldl MetricsAccess.apply m =
      m.setHistogram name ((m.histograms name).observe value) := by
  simp only [MetricsCall.accesses, List.foldl_cons, List.foldl_nil, MetricsAccess.apply,
    Metrics.setHistogram_self]
  simp only [Metrics.setHistogram, Function.update_idem]
  rfl

def metricsAfter (accesses : List (MetricsAccess K)) : Metrics :=
  accesses.foldl MetricsAccess.apply Metrics.start

end Accesses

section Weights

variable {K : Type} [Field K] [LinearOrder K]

def MetricsAccess.inBucket (name : MetricName) (b : Fin 6) : MetricsAccess K → Nat
  | .bucket other value => if other = name ∧ observeBucket value = b then 1 else 0
  | _ => 0

/-- The additions to a sum by values of one bucket. -/
def MetricsAccess.sums (name : MetricName) (b : Fin 6) : MetricsAccess K → Nat
  | .sum other value => if other = name ∧ observeBucket value = b then 1 else 0
  | _ => 0

def MetricsAccess.milliUs [FloorSemiring K] [RoundedMul K] (name : MetricName) :
    MetricsAccess K → Nat
  | .sum other value => if other = name then milliUsOf value else 0
  | _ => 0

def MetricsAccess.misses : MetricsAccess K → Nat
  | .deadlineMiss => 1
  | _ => 0

def MetricsAccess.stops : MetricsAccess K → Nat
  | .emergencyStop => 1
  | _ => 0

/-- The value that a call observes in the histogram. -/
def MetricsCall.value? (name : MetricName) : MetricsCall K → Option (Ieee K)
  | .observe other value => if other = name then some value else none
  | _ => none

/-- The value that an access counts in a bucket. -/
def MetricsAccess.counted? (name : MetricName) : MetricsAccess K → Option (Ieee K)
  | .bucket other value => if other = name then some value else none
  | _ => none

/-- The value that an access adds to a sum. -/
def MetricsAccess.summed? (name : MetricName) : MetricsAccess K → Option (Ieee K)
  | .sum other value => if other = name then some value else none
  | _ => none

section Bare

omit [Field K] [LinearOrder K]

@[simp] theorem MetricsAccess.counted?_sum (name other : MetricName) (value : Ieee K) :
    (MetricsAccess.sum other value).counted? name = none := rfl

@[simp] theorem MetricsAccess.summed?_bucket (name other : MetricName) (value : Ieee K) :
    (MetricsAccess.bucket other value).summed? name = none := rfl

end Bare

@[simp] theorem MetricsAccess.inBucket_sum (name other : MetricName) (b : Fin 6) (value : Ieee K) :
    (MetricsAccess.sum other value).inBucket name b = 0 := rfl

@[simp] theorem MetricsAccess.sums_bucket (name other : MetricName) (b : Fin 6) (value : Ieee K) :
    (MetricsAccess.bucket other value).sums name b = 0 := rfl

variable [FloorSemiring K] [RoundedMul K] (counter : Metrics → Nat) {weight : MetricsAccess K → Nat}

/-- A counter holds, at its width, what the accesses have added to it. -/
theorem counter_metricsAfter (zero : counter Metrics.start = 0)
    (adds : ∀ {m n}, counter m = n % 2 ^ 64 → ∀ access : MetricsAccess K,
      counter (access.apply m) = (n + weight access) % 2 ^ 64)
    (accesses : List (MetricsAccess K)) :
    counter (metricsAfter accesses) = (accesses.map weight).sum % 2 ^ 64 := by
  induction accesses using List.reverseRecOn with
  | nil => exact zero
  | append_singleton accesses access ih =>
    rw [metricsAfter, List.foldl_append, List.map_append, List.sum_append]
    exact adds ih access

theorem metricsAfter_bucket (name : MetricName) (b : Fin 6) (accesses : List (MetricsAccess K)) :
    ((metricsAfter accesses).histograms name).buckets b =
      (accesses.map (MetricsAccess.inBucket name b)).sum % 2 ^ 64 := by
  refine counter_metricsAfter (fun m => (m.histograms name).buckets b) rfl ?_ accesses
  intro m n h access
  cases access with
  | bucket other value =>
    by_cases same : other = name
    · subst same
      by_cases here : observeBucket value = b
      · subst here
        simp only [MetricsAccess.apply, MetricsAccess.inBucket, Metrics.setHistogram_self,
          Function.update_self, h, fetchAdd, and_self, if_true]
        exact Nat.mod_add_mod _ _ _
      · simp only [MetricsAccess.apply, MetricsAccess.inBucket, Metrics.setHistogram_self, here,
          and_false, if_false, Nat.add_zero]
        rw [Function.update_of_ne (Ne.symm here)]
        exact h
    · simp only [MetricsAccess.apply, MetricsAccess.inBucket, same, false_and, if_false, Nat.add_zero]
      rw [m.setHistogram_of_ne _ (Ne.symm same)]
      exact h
  | sum other value =>
    by_cases same : other = name
    · subst same
      simp only [MetricsAccess.apply, MetricsAccess.inBucket, Metrics.setHistogram_self, Nat.add_zero]
      exact h
    · simp only [MetricsAccess.apply, MetricsAccess.inBucket, Nat.add_zero]
      rw [m.setHistogram_of_ne _ (Ne.symm same)]
      exact h
  | _ => exact h

theorem metricsAfter_sum (name : MetricName) (accesses : List (MetricsAccess K)) :
    ((metricsAfter accesses).histograms name).sumMilliUs =
      (accesses.map (MetricsAccess.milliUs name)).sum % 2 ^ 64 := by
  refine counter_metricsAfter (fun m => (m.histograms name).sumMilliUs) rfl ?_ accesses
  intro m n h access
  cases access with
  | sum other value =>
    by_cases same : other = name
    · subst same
      simp only [MetricsAccess.apply, MetricsAccess.milliUs, Metrics.setHistogram_self, h, fetchAdd,
        if_true]
      exact Nat.mod_add_mod _ _ _
    · simp only [MetricsAccess.apply, MetricsAccess.milliUs, same, if_false, Nat.add_zero]
      rw [m.setHistogram_of_ne _ (Ne.symm same)]
      exact h
  | bucket other value =>
    by_cases same : other = name
    · subst same
      simp only [MetricsAccess.apply, MetricsAccess.milliUs, Metrics.setHistogram_self, Nat.add_zero]
      exact h
    · simp only [MetricsAccess.apply, MetricsAccess.milliUs, Nat.add_zero]
      rw [m.setHistogram_of_ne _ (Ne.symm same)]
      exact h
  | _ => exact h

theorem metricsAfter_misses (accesses : List (MetricsAccess K)) :
    (metricsAfter accesses).deadlineMisses =
      (accesses.map MetricsAccess.misses).sum % 2 ^ 64 := by
  refine counter_metricsAfter Metrics.deadlineMisses rfl ?_ accesses
  intro m n h access
  cases access with
  | deadlineMiss =>
    simp only [MetricsAccess.apply, MetricsAccess.misses, fetchAdd, h]
    exact Nat.mod_add_mod _ _ _
  | _ => exact h

theorem metricsAfter_stops (accesses : List (MetricsAccess K)) :
    (metricsAfter accesses).emergencyStops =
      (accesses.map MetricsAccess.stops).sum % 2 ^ 64 := by
  refine counter_metricsAfter Metrics.emergencyStops rfl ?_ accesses
  intro m n h access
  cases access with
  | emergencyStop =>
    simp only [MetricsAccess.apply, MetricsAccess.stops, fetchAdd, h]
    exact Nat.mod_add_mod _ _ _
  | _ => exact h

end Weights

section Values

variable {K : Type} [Field K] [LinearOrder K]

theorem inBucket_sum (name : MetricName) (b : Fin 6) (accesses : List (MetricsAccess K)) :
    (accesses.map (MetricsAccess.inBucket name b)).sum =
      (accesses.filterMap (MetricsAccess.counted? name)).countP fun v => decide (observeBucket v = b) := by
  induction accesses with
  | nil => rfl
  | cons access rest ih =>
    rw [List.map_cons, List.sum_cons, ih]
    cases access with
    | bucket other value =>
      by_cases same : other = name
      · simp [MetricsAccess.inBucket, MetricsAccess.counted?, same, List.countP_cons, Nat.add_comm]
      · simp [MetricsAccess.inBucket, MetricsAccess.counted?, same]
    | _ => exact Nat.zero_add _

theorem sums_sum (name : MetricName) (b : Fin 6) (accesses : List (MetricsAccess K)) :
    (accesses.map (MetricsAccess.sums name b)).sum =
      (accesses.filterMap (MetricsAccess.summed? name)).countP fun v => decide (observeBucket v = b) := by
  induction accesses with
  | nil => rfl
  | cons access rest ih =>
    rw [List.map_cons, List.sum_cons, ih]
    cases access with
    | sum other value =>
      by_cases same : other = name
      · simp [MetricsAccess.sums, MetricsAccess.summed?, same, List.countP_cons, Nat.add_comm]
      · simp [MetricsAccess.sums, MetricsAccess.summed?, same]
    | _ => exact Nat.zero_add _

theorem milliUs_sum [FloorSemiring K] [RoundedMul K] (name : MetricName)
    (accesses : List (MetricsAccess K)) :
    (accesses.map (MetricsAccess.milliUs name)).sum =
      ((accesses.filterMap (MetricsAccess.summed? name)).map milliUsOf).sum := by
  induction accesses with
  | nil => rfl
  | cons access rest ih =>
    rw [List.map_cons, List.sum_cons, ih]
    cases access with
    | sum other value =>
      by_cases same : other = name
      · simp [MetricsAccess.milliUs, MetricsAccess.summed?, same]
      · simp [MetricsAccess.milliUs, MetricsAccess.summed?, same]
    | _ => exact Nat.zero_add _

omit [Field K] [LinearOrder K] in
theorem summed_sum (name : MetricName) (accesses : List (MetricsAccess K)) :
    (accesses.map fun access => (access.summed? name).elim 0 fun v => ({v} : Multiset (Ieee K))).sum =
      (accesses.filterMap (MetricsAccess.summed? name) : Multiset (Ieee K)) := by
  induction accesses with
  | nil => rfl
  | cons access rest ih =>
    rw [List.map_cons, List.sum_cons, ih]
    cases found : access.summed? name with
    | none => simp [found]
    | some value => simp [found]

variable {calls : List (MetricsCall K)}

omit [Field K] [LinearOrder K] in
theorem accesses_counted (name : MetricName) (calls : List (MetricsCall K)) :
    (calls.flatMap MetricsCall.accesses).filterMap (MetricsAccess.counted? name) =
      calls.filterMap (MetricsCall.value? name) := by
  induction calls with
  | nil => rfl
  | cons call rest ih =>
    rw [List.flatMap_cons, List.filterMap_append, ih]
    cases call with
    | observe other value =>
      by_cases same : other = name <;>
        simp [MetricsCall.accesses, MetricsAccess.counted?, MetricsCall.value?, same]
    | _ => rfl

omit [Field K] [LinearOrder K] in
theorem accesses_summed (name : MetricName) (calls : List (MetricsCall K)) :
    (calls.flatMap MetricsCall.accesses).filterMap (MetricsAccess.summed? name) =
      calls.filterMap (MetricsCall.value? name) := by
  induction calls with
  | nil => rfl
  | cons call rest ih =>
    rw [List.flatMap_cons, List.filterMap_append, ih]
    cases call with
    | observe other value =>
      rw [MetricsCall.accesses,
        List.filterMap_cons_none (MetricsAccess.summed?_bucket name other value)]
      by_cases same : other = name <;> simp [MetricsAccess.summed?, MetricsCall.value?, same]
    | _ => rfl

/-- An observation is counted before it is summed. -/
theorem accesses_order (name : MetricName) (b : Fin 6) {rest : List (MetricsAccess K)}
    (part : rest <:+ calls.flatMap MetricsCall.accesses) :
    (rest.map (MetricsAccess.inBucket name b)).sum ≤ (rest.map (MetricsAccess.sums name b)).sum := by
  induction calls with
  | nil => rw [List.suffix_nil.mp part]; exact le_rfl
  | cons call later ih =>
    have whole : ((later.flatMap MetricsCall.accesses).map (MetricsAccess.inBucket name b)).sum ≤
        ((later.flatMap MetricsCall.accesses).map (MetricsAccess.sums name b)).sum := by
      rw [inBucket_sum, sums_sum, accesses_counted, accesses_summed]
    rw [List.flatMap_cons] at part
    cases call with
    | observe other value =>
      rcases List.suffix_cons_iff.mp part with rfl | part
      · simpa [MetricsAccess.inBucket, MetricsAccess.sums] using whole
      · rcases List.suffix_cons_iff.mp part with rfl | part
        · simp only [List.map_cons, List.sum_cons, MetricsAccess.inBucket_sum, Nat.zero_add]
          exact whole.trans (Nat.le_add_left _ _)
        · exact ih part
    | incrementDeadlineMisses =>
      rcases List.suffix_cons_iff.mp part with rfl | part
      · simpa [MetricsAccess.inBucket, MetricsAccess.sums] using whole
      · exact ih part
    | incrementEmergencyStops =>
      rcases List.suffix_cons_iff.mp part with rfl | part
      · simpa [MetricsAccess.inBucket, MetricsAccess.sums] using whole
      · exact ih part

end Values

section Race

variable {ι K : Type} [DecidableEq ι]

/-- Each thread's accesses beside so many consecutive scrapes. -/
def metricsRace (calls : ι → List (MetricsCall K)) (n : Nat) (turns : List (Access ι)) :
    Run (MetricsAccess K) (Nat × MetricsLoad) :=
  ((Race.start (fun t => (calls t).flatMap MetricsCall.accesses)
    (rounds prometheusLoads n)).after turns).reads

/-- The scrape has made all its loads. -/
def Scraped (r : Run (MetricsAccess K) (Nat × MetricsLoad)) (k : Nat) : Prop :=
  ∀ l ∈ prometheusLoads, (k, l) ∈ r.seen.map Prod.fst

theorem prometheusLoads_nodup : prometheusLoads.Nodup := by decide

theorem sum_before_bucket : ∀ (name : MetricName) (b : Fin 6),
    [MetricsLoad.sum name, .bucket name b].Sublist prometheusLoads := by
  intro name b
  cases name <;> revert b <;> decide

variable {calls : ι → List (MetricsCall K)} {n k k' : Nat} {turns : List (Access ι)}
  {l m : MetricsLoad}

theorem metricsRace_inv (calls : ι → List (MetricsCall K)) (n : Nat) (turns : List (Access ι)) :
    Inv (metricsRace calls n turns).made (rounds prometheusLoads n) (metricsRace calls n turns) :=
  ((raceInv_start _ _).after turns).reads

theorem Scraped.lt (h : Scraped (metricsRace calls n turns) k) : k < n := by
  have made := h (.sum .loop) (by decide)
  have part : (metricsRace calls n turns).seen.map Prod.fst <+: rounds prometheusLoads n :=
    ⟨_, (metricsRace_inv calls n turns).loads⟩
  exact (mem_rounds.mp (part.subset made)).1

/-- What of a race a load came after. -/
theorem history_moment (calls : ι → List (MetricsCall K)) (n : Nat) (turns : List (Access ι))
    (e : Nat × MetricsLoad) : ∃ earlier : List (Access ι),
      (metricsRace calls n turns).historyAt e = ((Race.start
        (fun t => (calls t).flatMap MetricsCall.accesses)
        (rounds prometheusLoads n)).after earlier).reads.made := historyAt_moment turns e

theorem metrics_within (h : Scraped (metricsRace calls n turns) k)
    (order : [l, m].Sublist prometheusLoads) :
    (metricsRace calls n turns).historyAt (k, l) <+: (metricsRace calls n turns).historyAt (k, m) :=
  (metricsRace_inv calls n turns).historyAt_mono (rounds_nodup prometheusLoads_nodup n)
    (within_round h.lt order) (h m (order.subset (List.mem_cons_of_mem _ List.mem_cons_self)))

theorem metrics_across (order : k < k') (h : Scraped (metricsRace calls n turns) k')
    (load : l ∈ prometheusLoads) :
    (metricsRace calls n turns).historyAt (k, l) <+: (metricsRace calls n turns).historyAt (k', l) :=
  (metricsRace_inv calls n turns).historyAt_mono (rounds_nodup prometheusLoads_nodup n)
    (across_rounds order h.lt load load) (h l load)

end Race

section Observed

variable {ι K : Type} [Fintype ι]

/-- The values that all threads are to observe in a histogram. -/
def observedValues (calls : ι → List (MetricsCall K)) (name : MetricName) : Multiset (Ieee K) :=
  ∑ t, ((calls t).filterMap (MetricsCall.value? name) : Multiset (Ieee K))

theorem card_observedValues (calls : ι → List (MetricsCall K)) (name : MetricName) :
    (observedValues calls name).card ≤ ∑ t, (calls t).length := by
  rw [observedValues, Multiset.card_sum]
  exact Finset.sum_le_sum fun t _ => List.length_filterMap_le _ _

theorem countP_observedValues (calls : ι → List (MetricsCall K)) (name : MetricName)
    (p : Ieee K → Prop) [DecidablePred p] : (observedValues calls name).countP p =
      ∑ t, ((calls t).filterMap (MetricsCall.value? name)).countP fun v => decide (p v) :=
  (map_sum (Multiset.countPAddMonoidHom p) _ _).trans
    (Finset.sum_congr rfl fun _ _ => Multiset.coe_countP p _)

theorem sum_countP_bucket [Field K] [LinearOrder K] (values : Multiset (Ieee K)) (i : Fin 6) :
    ∑ b ∈ Finset.Iic i, (values.countP fun v => observeBucket v = b) =
      values.countP fun v => observeBucket v ≤ i := by
  induction values using Quotient.inductionOn with
  | h l =>
    have fibers := sum_countP_fiber observeBucket (Finset.Iic i) l
    simp only [Finset.mem_Iic] at fibers
    simpa [Multiset.quot_mk_to_coe, Multiset.coe_countP] using fibers

end Observed

section Answers

variable {ι K : Type} [DecidableEq ι] [Fintype ι] [Field K] [LinearOrder K]
  {calls : ι → List (MetricsCall K)}

theorem history_summed_le (calls : ι → List (MetricsCall K)) (n : Nat) (turns : List (Access ι))
    (e : Nat × MetricsLoad) (name : MetricName) (b : Fin 6) :
    (((metricsRace calls n turns).historyAt e).map (MetricsAccess.sums name b)).sum ≤
      (((metricsRace calls n turns).historyAt e).map (MetricsAccess.inBucket name b)).sum := by
  obtain ⟨earlier, moment⟩ := history_moment calls n turns e
  rw [moment]
  refine made_late_le (fun t => ?_) (fun t rest part => accesses_order name b part) earlier
  rw [inBucket_sum, sums_sum, accesses_counted, accesses_summed]

theorem history_bucket_le (calls : ι → List (MetricsCall K)) (n : Nat) (turns : List (Access ι))
    (e : Nat × MetricsLoad) (name : MetricName) (b : Fin 6) :
    (((metricsRace calls n turns).historyAt e).map (MetricsAccess.inBucket name b)).sum ≤
      (observedValues calls name).countP fun v => observeBucket v = b := by
  obtain ⟨earlier, moment⟩ := history_moment calls n turns e
  rw [moment, countP_observedValues]
  refine (made_le (MetricsAccess.inBucket name b) earlier).trans_eq ?_
  exact Finset.sum_congr rfl fun t _ => by rw [inBucket_sum, accesses_counted]

omit [Field K] [LinearOrder K] in
/-- What a load finds in a sum is the sum of values that threads observe. -/
theorem history_summed_among (calls : ι → List (MetricsCall K)) (n : Nat) (turns : List (Access ι))
    (e : Nat × MetricsLoad) (name : MetricName) :
    (((metricsRace calls n turns).historyAt e).filterMap (MetricsAccess.summed? name) :
      Multiset (Ieee K)) ≤ observedValues calls name := by
  obtain ⟨earlier, moment⟩ := history_moment calls n turns e
  rw [moment, ← summed_sum]
  refine (made_le _ earlier).trans_eq ?_
  exact Finset.sum_congr rfl fun t _ => by rw [summed_sum, accesses_summed]

variable [FloorSemiring K] [RoundedMul K]

def metricsAnswer (r : Run (MetricsAccess K) (Nat × MetricsLoad)) (k : Nat) : MetricsText K :=
  prometheusText fun l => metricsAfter (r.historyAt (k, l))

omit [LinearOrder K] [FloorSemiring K] [RoundedMul K] in
def MetricsText.line (text : MetricsText K) (name : MetricName) (i : Fin 6) : Nat :=
  (text.histogram name).lines.getD i 0

/-- A line adds up its buckets, each at its own moment. -/
theorem metrics_line (few : ∑ t, (calls t).length < 2 ^ 64) (n : Nat) (turns : List (Access ι))
    (k : Nat) (name : MetricName) (i : Fin 6) :
    (metricsAnswer (metricsRace calls n turns) k).line name i =
      ∑ b ∈ Finset.Iic i, (((metricsRace calls n turns).historyAt (k, .bucket name b)).map
        (MetricsAccess.inBucket name b)).sum := by
  have each : ∀ b, (((metricsRace calls n turns).historyAt (k, .bucket name b)).map
      (MetricsAccess.inBucket name b)).sum ≤
        (observedValues calls name).countP fun v => observeBucket v = b := fun b =>
    history_bucket_le calls n turns (k, .bucket name b) name b
  have most : ∑ b ∈ Finset.Iic i, (((metricsRace calls n turns).historyAt (k, .bucket name b)).map
      (MetricsAccess.inBucket name b)).sum < 2 ^ 64 := by
    refine lt_of_le_of_lt ((Finset.sum_le_sum fun b _ => each b).trans ?_) few
    rw [sum_countP_bucket]
    exact (Multiset.countP_le_card _ _).trans (card_observedValues calls name)
  have stored : ∀ b ∈ Finset.Iic i, ((metricsAfter
      ((metricsRace calls n turns).historyAt (k, .bucket name b))).histograms name).buckets b =
        (((metricsRace calls n turns).historyAt (k, .bucket name b)).map
          (MetricsAccess.inBucket name b)).sum := by
    intro b inside
    rw [metricsAfter_bucket]
    have one := Finset.single_le_sum (f := fun b => (((metricsRace calls n turns).historyAt
      (k, .bucket name b)).map (MetricsAccess.inBucket name b)).sum) (fun _ _ => Nat.zero_le _) inside
    exact Nat.mod_eq_of_lt (one.trans_lt most)
  have lines : ((metricsAnswer (metricsRace calls n turns) k).histogram name).lines =
      (List.finRange 6).map (cumulative fun b => ((metricsAfter
        ((metricsRace calls n turns).historyAt (k, .bucket name b))).histograms name).buckets b) :=
    congrArg PrometheusHistogram.lines (prometheusText_eq _)
  have printed : (metricsAnswer (metricsRace calls n turns) k).line name i =
      cumulative (fun b => ((metricsAfter ((metricsRace calls n turns).historyAt
        (k, .bucket name b))).histograms name).buckets b) i := by
    rw [MetricsText.line, lines]
    simp
  rw [printed, cumulative_eq, Finset.sum_congr rfl stored, Nat.mod_eq_of_lt most]

omit [DecidableEq ι] [Fintype ι] [Field K] [LinearOrder K] [FloorSemiring K] [RoundedMul K] in
theorem history_mono (weight : MetricsAccess K → Nat) {before after : List (MetricsAccess K)}
    (h : before <+: after) : (before.map weight).sum ≤ (after.map weight).sum :=
  (h.sublist.map weight).sum_le_sum fun _ _ => Nat.zero_le _

omit [Field K] [LinearOrder K] [FloorSemiring K] [RoundedMul K] in
/-- A counter that a call raises by one at most does not wrap in a short run. -/
theorem history_counter (few : ∑ t, (calls t).length < 2 ^ 64) {weight : MetricsAccess K → Nat}
    (single : ∀ call : MetricsCall K, (call.accesses.map weight).sum ≤ 1) (n : Nat)
    (turns : List (Access ι)) (e : Nat × MetricsLoad) :
    (((metricsRace calls n turns).historyAt e).map weight).sum % 2 ^ 64 =
      (((metricsRace calls n turns).historyAt e).map weight).sum := by
  obtain ⟨earlier, moment⟩ := history_moment calls n turns e
  have program : ∀ program : List (MetricsCall K),
      ((program.flatMap MetricsCall.accesses).map weight).sum ≤ program.length := by
    intro program
    induction program with
    | nil => exact le_rfl
    | cons call rest ih =>
      rw [List.flatMap_cons, List.map_append, List.sum_append, List.length_cons]
      have one := single call
      omega
  rw [moment]
  refine Nat.mod_eq_of_lt (((made_le weight earlier).trans ?_).trans_lt few)
  exact Finset.sum_le_sum fun t _ => program (calls t)

/-- Scrapes beside any number of observing threads: the `+Inf` line is the count, the sum is
that of values which the same answer has counted already, and no line falls between two
answers. -/
theorem metrics_scrapes (calls : ι → List (MetricsCall K)) (few : ∑ t, (calls t).length < 2 ^ 64)
    (n : Nat) (turns : List (Access ι)) :
    let r := metricsRace calls n turns
    (∀ k, Scraped r k → ∀ name,
      let text := metricsAnswer r k
      (text.histogram name).count = text.line name 5 ∧
        (∀ i j, i ≤ j → text.line name i ≤ text.line name j) ∧
        ∃ summed : List (Ieee K), (summed : Multiset (Ieee K)) ≤ observedValues calls name ∧
          (text.histogram name).sumUs =
            (((summed.map milliUsOf).sum % 2 ^ 64 : Nat) : K) / ((1000 : Nat) : K) ∧
          ∀ i, (summed.countP fun v => decide (observeBucket v ≤ i)) ≤ text.line name i ∧
            text.line name i ≤ (observedValues calls name).countP fun v => observeBucket v ≤ i) ∧
    ∀ k k', k < k' → Scraped r k' →
      (∀ name i, (metricsAnswer r k).line name i ≤ (metricsAnswer r k').line name i) ∧
        (metricsAnswer r k).deadlineMisses ≤ (metricsAnswer r k').deadlineMisses ∧
        (metricsAnswer r k).emergencyStops ≤ (metricsAnswer r k').emergencyStops := by
  intro r
  refine ⟨fun k scraped name => ⟨?_, fun i j order => ?_, ?_⟩, fun k k' order scraped => ⟨?_, ?_, ?_⟩⟩
  · have text := prometheusText_eq (K := K) ⟨fun b => ((metricsAfter (r.historyAt
      (k, .bucket name b))).histograms name).buckets b,
      ((metricsAfter (r.historyAt (k, .sum name))).histograms name).sumMilliUs⟩
    show (MetricsHistogram.prometheusText _).count = (MetricsHistogram.prometheusText _).lines.getD 5 0
    rw [text]
    rfl
  · rw [metrics_line few, metrics_line few]
    exact Finset.sum_le_sum_of_subset (Finset.Iic_subset_Iic.mpr order)
  · refine ⟨(r.historyAt (k, .sum name)).filterMap (MetricsAccess.summed? name),
      history_summed_among calls n turns _ name, ?_, fun i => ⟨?_, ?_⟩⟩
    · show ((((metricsAfter (r.historyAt (k, .sum name))).histograms name).sumMilliUs : Nat) : K) / _ = _
      rw [metricsAfter_sum, milliUs_sum]
    · rw [metrics_line few]
      have counted := sum_countP_fiber observeBucket (Finset.Iic i)
        ((r.historyAt (k, .sum name)).filterMap (MetricsAccess.summed? name))
      simp only [Finset.mem_Iic] at counted
      rw [← counted]
      refine Finset.sum_le_sum fun b _ => ?_
      rw [← sums_sum]
      exact (history_summed_le calls n turns (k, .sum name) name b).trans
        (history_mono _ (metrics_within scraped (sum_before_bucket name b)))
    · rw [metrics_line few, ← sum_countP_bucket]
      exact Finset.sum_le_sum fun b _ => history_bucket_le calls n turns _ name b
  · intro name i
    rw [metrics_line few, metrics_line few]
    refine Finset.sum_le_sum fun b _ => history_mono _ (metrics_across order scraped ?_)
    exact (sum_before_bucket name b).subset (List.mem_cons_of_mem _ List.mem_cons_self)
  · have single : ∀ call : MetricsCall K, (call.accesses.map MetricsAccess.misses).sum ≤ 1 := by
      intro call
      cases call <;> simp [MetricsCall.accesses, MetricsAccess.misses]
    show (metricsAfter _).deadlineMisses ≤ (metricsAfter _).deadlineMisses
    rw [metricsAfter_misses, metricsAfter_misses, history_counter few single,
      history_counter few single]
    exact history_mono _ (metrics_across order scraped (by decide))
  · have single : ∀ call : MetricsCall K, (call.accesses.map MetricsAccess.stops).sum ≤ 1 := by
      intro call
      cases call <;> simp [MetricsCall.accesses, MetricsAccess.stops]
    show (metricsAfter _).emergencyStops ≤ (metricsAfter _).emergencyStops
    rw [metricsAfter_stops, metricsAfter_stops, history_counter few single,
      history_counter few single]
    exact history_mono _ (metrics_across order scraped (by decide))

end Answers

section Halves

/-- Two threads with an observation each, one of them slow and counted as a miss. -/
def halvesCalls : Bool → List (MetricsCall ℚ)
  | true => [.observe .loop (.fin 30)]
  | false => [.observe .loop (.fin 700), .incrementDeadlineMisses]

/-- The first scrape meets an observation that is counted and not yet summed. -/
def halvesTurns : List (Access Bool) :=
  [.writer true] ++ List.replicate 16 .reader ++ [.writer false, .writer true, .writer false] ++
    List.replicate 16 .reader

theorem halvesTurns_scraped : Scraped (metricsRace halvesCalls 2 halvesTurns) 0 ∧
    Scraped (metricsRace halvesCalls 2 halvesTurns) 1 := by
  unfold Scraped
  decide +kernel

theorem metrics_scrapes_halves :
    (∃ summed : List (Ieee ℚ), (summed : Multiset (Ieee ℚ)) ≤ observedValues halvesCalls .loop ∧
      ((metricsAnswer (metricsRace halvesCalls 2 halvesTurns) 0).histogram .loop).sumUs =
        (((summed.map milliUsOf).sum % 2 ^ 64 : Nat) : ℚ) / ((1000 : Nat) : ℚ) ∧
      ∀ i, (summed.countP fun v => decide (observeBucket v ≤ i)) ≤
          (metricsAnswer (metricsRace halvesCalls 2 halvesTurns) 0).line .loop i ∧
        (metricsAnswer (metricsRace halvesCalls 2 halvesTurns) 0).line .loop i ≤
          (observedValues halvesCalls .loop).countP fun v => observeBucket v ≤ i) ∧
      (metricsAnswer (metricsRace halvesCalls 2 halvesTurns) 0).line .loop 5 ≤
        (metricsAnswer (metricsRace halvesCalls 2 halvesTurns) 1).line .loop 5 := by
  obtain ⟨answers, later⟩ := metrics_scrapes halvesCalls (by decide) 2 halvesTurns
  exact ⟨(answers 0 halvesTurns_scraped.1 .loop).2.2,
    (later 0 1 Nat.one_pos halvesTurns_scraped.2).1 .loop 5⟩

end Halves

end NeuroKinetic
