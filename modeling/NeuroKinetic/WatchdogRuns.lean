import NeuroKinetic.DaemonTick
import NeuroKinetic.RealArithmetic

open RidgeProjection

namespace NeuroKinetic

/-- Strictly more than 150 whole milliseconds are 151 ms in nanoseconds. -/
theorem silentMs_iff (d : Int) : 150 < d.tdiv 1000000 ↔ 151000000 ≤ d := by
  rcases le_total 0 d with forward | backward
  · rw [Int.tdiv_eq_ediv_of_nonneg forward]
    omega
  · have mirrored : d.tdiv 1000000 = -((-d) / 1000000) := by
      rw [← Int.tdiv_eq_ediv_of_nonneg (by omega), Int.neg_tdiv, neg_neg]
    rw [mirrored]
    omega

theorem Watchdog.evaluate_changed {w : Watchdog} {heartbeat : Nat} {now : Int}
    (h : heartbeat ≠ w.lastPythonHeartbeat) : w.evaluate heartbeat now = ⟨heartbeat, now, false⟩ :=
  if_pos h

theorem Watchdog.evaluate_same (w : Watchdog) (now : Int) :
    w.evaluate w.lastPythonHeartbeat now =
      ⟨w.lastPythonHeartbeat, w.lastHeartbeatChangeTime,
        w.tripped || decide (w.lastPythonHeartbeat ≠ 0 ∧
          151000000 ≤ now - w.lastHeartbeatChangeTime)⟩ := by
  have silent : (150 < (now - w.lastHeartbeatChangeTime).tdiv 1000000 ∧ 0 < w.lastPythonHeartbeat) ↔
      (w.lastPythonHeartbeat ≠ 0 ∧ 151000000 ≤ now - w.lastHeartbeatChangeTime) := by
    rw [silentMs_iff]
    omega
  simp only [Watchdog.evaluate, ne_eq, not_true_eq_false, if_false, silent]
  split
  next late => rw [decide_eq_true late, Bool.or_true]
  next early => rw [decide_eq_false early, Bool.or_false]

theorem Watchdog.evaluate_heartbeat (w : Watchdog) (heartbeat : Nat) (now : Int) :
    (w.evaluate heartbeat now).lastPythonHeartbeat = heartbeat := by
  by_cases h : heartbeat = w.lastPythonHeartbeat
  · rw [h, w.evaluate_same]
  · rw [w.evaluate_changed h]

variable {K : Type}

def watchdogRun (w : Watchdog) (ticks : List (TickInput K)) : Watchdog :=
  ticks.foldl (fun w input => w.evaluate input.heartbeatPython input.tickStart) w

theorem watchdogRun_append (w : Watchdog) (ticks later : List (TickInput K)) :
    watchdogRun w (ticks ++ later) = watchdogRun (watchdogRun w ticks) later :=
  List.foldl_append

theorem watchdogRun_snoc (w : Watchdog) (ticks : List (TickInput K)) (next : TickInput K) :
    watchdogRun w (ticks ++ [next]) =
      (watchdogRun w ticks).evaluate next.heartbeatPython next.tickStart :=
  watchdogRun_append w ticks [next]

/-- The heartbeat a run has observed last; none counts as zero. -/
def lastObserved (ticks : List (TickInput K)) : Nat :=
  (ticks.getLast?.map (·.heartbeatPython)).getD 0

theorem lastObserved_snoc (ticks : List (TickInput K)) (next : TickInput K) :
    lastObserved (ticks ++ [next]) = next.heartbeatPython := by
  simp [lastObserved]

theorem watchdogRun_heartbeat (start : Int) (ticks : List (TickInput K)) :
    (watchdogRun (Watchdog.start start) ticks).lastPythonHeartbeat = lastObserved ticks := by
  induction ticks using List.reverseRecOn with
  | nil => rfl
  | append_singleton ticks next _ =>
    rw [watchdogRun_snoc, lastObserved_snoc, Watchdog.evaluate_heartbeat]

/-- The run of identical observations that `first` begins and `rest` continues. -/
structure IdenticalRun (before : List (TickInput K)) (first : TickInput K)
    (rest : List (TickInput K)) : Prop where
  same : ∀ input ∈ rest, input.heartbeatPython = first.heartbeatPython
  begins : ∀ input ∈ before.getLast?, input.heartbeatPython ≠ first.heartbeatPython

structure RunHeld (w : Watchdog) (first last : TickInput K) : Prop where
  heartbeat : w.lastPythonHeartbeat = first.heartbeatPython
  since : first.heartbeatPython ≠ 0 → w.lastHeartbeatChangeTime = first.tickStart
  tripped : w.tripped = true ↔
    first.heartbeatPython ≠ 0 ∧ 151000000 ≤ last.tickStart - first.tickStart

theorem runHeld_first {start : Int} {before : List (TickInput K)} {first : TickInput K}
    (begins : ∀ input ∈ before.getLast?, input.heartbeatPython ≠ first.heartbeatPython) :
    RunHeld (watchdogRun (Watchdog.start start) (before ++ [first])) first first := by
  have observed := watchdogRun_heartbeat start before
  rw [watchdogRun_snoc]
  by_cases h : first.heartbeatPython = lastObserved before
  · -- only the zero of an unconnected client repeats what the watchdog starts with
    have empty : before = [] := by
      by_contra hne
      obtain ⟨front, last, rfl⟩ := List.eq_nil_or_concat' before |>.resolve_left hne
      rw [lastObserved_snoc] at h
      exact begins last (by simp) h.symm
    subst empty
    have zero : first.heartbeatPython = 0 := h
    rw [zero]
    refine ⟨by rw [Watchdog.evaluate_heartbeat, zero], fun h => absurd zero h, ?_⟩
    simp [watchdogRun, Watchdog.start, Watchdog.evaluate, zero]
  · rw [Watchdog.evaluate_changed (by rwa [observed])]
    exact ⟨rfl, fun _ => rfl, by simp⟩

theorem RunHeld.step {w : Watchdog} {first last next : TickInput K} (h : RunHeld w first last)
    (same : next.heartbeatPython = first.heartbeatPython)
    (later : last.tickStart ≤ next.tickStart) :
    RunHeld (w.evaluate next.heartbeatPython next.tickStart) first next := by
  rw [same, ← h.heartbeat, w.evaluate_same]
  refine ⟨h.heartbeat, h.since, ?_⟩
  simp only [Bool.or_eq_true, decide_eq_true_eq, h.tripped, h.heartbeat]
  by_cases zero : first.heartbeatPython = 0
  · simp [zero]
  · rw [h.since zero]
    constructor
    · rintro (⟨_, early⟩ | late)
      · exact ⟨zero, by omega⟩
      · exact late
    · exact Or.inr

/-- The run lemma: the flag measures the time since the run began. -/
theorem watchdogRun_held (start : Int) {before rest : List (TickInput K)} {first : TickInput K}
    (run : IdenticalRun before first rest)
    (ordered : (first :: rest).Pairwise (fun a b => a.tickStart ≤ b.tickStart)) :
    RunHeld (watchdogRun (Watchdog.start start) (before ++ first :: rest)) first
      ((first :: rest).getLast (List.cons_ne_nil _ _)) := by
  induction rest using List.reverseRecOn with
  | nil => exact runHeld_first run.begins
  | append_singleton rest next ih =>
    have earlier : (first :: rest).Pairwise (fun a b => a.tickStart ≤ b.tickStart) :=
      ordered.sublist (by simp)
    have held := ih ⟨fun input member => run.same input (by simp [member]), run.begins⟩ earlier
    have split : before ++ first :: (rest ++ [next]) = (before ++ first :: rest) ++ [next] := by simp
    have last : (first :: (rest ++ [next])).getLast (List.cons_ne_nil _ _) = next := by simp
    rw [split, watchdogRun_snoc, last]
    apply held.step (run.same next (by simp))
    rw [← List.cons_append] at ordered
    exact (List.pairwise_append.mp ordered).2.2 _ (List.getLast_mem _) next (by simp)

theorem exists_identicalRun {ticks : List (TickInput K)} (hne : ticks ≠ []) :
    ∃ before first rest, ticks = before ++ first :: rest ∧ IdenticalRun before first rest := by
  induction ticks using List.reverseRecOn with
  | nil => exact absurd rfl hne
  | append_singleton ticks next ih =>
    by_cases empty : ticks = []
    · subst empty
      exact ⟨[], next, [], rfl, by simp, by simp⟩
    · obtain ⟨before, first, rest, rfl, run⟩ := ih empty
      by_cases same : next.heartbeatPython = first.heartbeatPython
      · refine ⟨before, first, rest ++ [next], by simp, fun input member => ?_, run.begins⟩
        rcases List.mem_append.mp member with member | member
        · exact run.same input member
        · rw [List.mem_singleton.mp member, same]
      · refine ⟨before ++ first :: rest, next, [], by simp, by simp, fun input member => ?_⟩
        rw [List.getLast?_append_of_ne_nil _ (List.cons_ne_nil _ _)] at member
        rcases List.mem_cons.mp (List.mem_of_getLast? member) with rfl | member
        · exact Ne.symm same
        · rw [run.same input member]
          exact Ne.symm same

variable [Field K] [LinearOrder K] [SquareRoot K] [ExactSolver K]

theorem runTicks_watchdog (obstacles : List (Obstacle K)) (s : DaemonState K)
    (ticks : List (TickInput K)) :
    (runTicks obstacles s ticks).watchdog = watchdogRun s.watchdog ticks := by
  induction ticks generalizing s with
  | nil => rfl
  | cons input rest ih => exact ih (tick obstacles s input).1

def TrippedAfter (obstacles : List (Obstacle K)) (start : Int) (ticks : List (TickInput K)) : Prop :=
  (runTicks obstacles (daemonStart start) ticks).watchdog.tripped = true

theorem trippedAfter_iff {obstacles : List (Obstacle K)} {start : Int}
    {ticks : List (TickInput K)} : TrippedAfter obstacles start ticks ↔
      (watchdogRun (Watchdog.start start) ticks).tripped = true := by
  rw [TrippedAfter, runTicks_watchdog]
  rfl

/-- Watchdog exactness over whole runs. -/
theorem watchdog_exact (obstacles : List (Obstacle K)) (start : Int) (ticks : List (TickInput K))
    (ordered : ticks.Pairwise (fun a b => a.tickStart ≤ b.tickStart)) :
    (∀ before first rest, ticks = before ++ first :: rest → IdenticalRun before first rest →
      (TrippedAfter obstacles start ticks ↔ first.heartbeatPython ≠ 0 ∧
        151000000 ≤ ((first :: rest).getLast (List.cons_ne_nil _ _)).tickStart - first.tickStart)) ∧
    ((∀ before first rest after, ticks = before ++ first :: rest ++ after →
        (∀ input ∈ rest, input.heartbeatPython = first.heartbeatPython) →
        ((first :: rest).getLast (List.cons_ne_nil _ _)).tickStart - first.tickStart ≤ 150000000) →
      ¬TrippedAfter obstacles start ticks) ∧
    ((∀ input ∈ ticks, input.heartbeatPython = 0) → ¬TrippedAfter obstacles start ticks) ∧
    (∀ next, next.heartbeatPython = lastObserved ticks → TrippedAfter obstacles start ticks →
      TrippedAfter obstacles start (ticks ++ [next])) ∧
    (∀ next, next.heartbeatPython ≠ lastObserved ticks →
      ¬TrippedAfter obstacles start (ticks ++ [next])) := by
  have exact_run : ∀ before first rest, ticks = before ++ first :: rest →
      IdenticalRun before first rest → (TrippedAfter obstacles start ticks ↔
        first.heartbeatPython ≠ 0 ∧
          151000000 ≤ ((first :: rest).getLast (List.cons_ne_nil _ _)).tickStart - first.tickStart) := by
    rintro before first rest rfl run
    rw [trippedAfter_iff]
    exact (watchdogRun_held start run (List.pairwise_append.mp ordered).2.1).tripped
  have idle : ticks = [] → ¬TrippedAfter obstacles start ticks := by
    rintro rfl
    exact Bool.false_ne_true
  refine ⟨exact_run, fun changing => ?_, fun silent => ?_, fun next same tripped => ?_,
    fun next changed => ?_⟩
  · by_cases hne : ticks = []
    · exact idle hne
    · obtain ⟨before, first, rest, split, run⟩ := exists_identicalRun hne
      rw [exact_run before first rest split run]
      have short := changing before first rest [] (by rw [split, List.append_nil]) run.same
      omega
  · by_cases hne : ticks = []
    · exact idle hne
    · obtain ⟨before, first, rest, split, run⟩ := exists_identicalRun hne
      rw [exact_run before first rest split run]
      exact fun tripped => tripped.1 (silent first (by simp [split]))
  · rw [trippedAfter_iff] at tripped ⊢
    rw [watchdogRun_snoc, same, ← watchdogRun_heartbeat start, Watchdog.evaluate_same, tripped,
      Bool.true_or]
  · rw [trippedAfter_iff, watchdogRun_snoc, Watchdog.evaluate_changed]
    · exact Bool.false_ne_true
    · rwa [watchdogRun_heartbeat]

theorem watchdog_exact_silence :
    TrippedAfter (daemonObstacles : List (Obstacle ℝ)) 0
      [⟨7, 1, 0, zeroTorque, 0, .fin 0, 0⟩, ⟨151000007, 1, 0, zeroTorque, 0, .fin 0, 0⟩] :=
  ((watchdog_exact daemonObstacles 0
    [⟨7, 1, 0, zeroTorque, 0, .fin 0, 0⟩, ⟨151000007, 1, 0, zeroTorque, 0, .fin 0, 0⟩]
    (by simp)).1 [] _ _ rfl ⟨by simp, by simp⟩).mpr ⟨by simp, by simp⟩

end NeuroKinetic
