import NeuroKinetic.DrainedWorker
import NeuroKinetic.PublishedFrames

open Binary32 RidgeProjection

namespace NeuroKinetic

section Pushes

variable {K : Type} [Field K] [LinearOrder K] [FloorRing K]

/-- A tick's observations, with the nanoseconds it has lasted when it pushes its frame. -/
structure TimedInput (K : Type) where
  observed : RecordedInput K
  loopNs : Int

/-- The largest quotient of an applied torque and its ceiling, each in single precision. -/
def maxTorqueRatio (limits : KinematicLimits K) (torque : Fin DOF → Ieee K) : Ieee K :=
  (List.finRange DOF).foldl
    (fun largest i =>
      let ratio := narrow ((torque i).abs / .fin (limits.torqueMax i))
      if largest < ratio then ratio else largest)
    (.fin 0)

/-- The frame that a tick pushes to the telemetry worker. -/
def pushedFrame (timed : TimedInput K) (after : DaemonState K × TickOutput K) :
    KinematicTelemetryFrame K where
  timestampNs := (BitVec.ofInt 64 timed.observed.systemClock).toNat
  loopDurationUs := narrow (.fin ((timed.loopNs : K) / ((1000 : Nat) : K)))
  conditionNumber := .fin 0
  maxTorqueSaturationRatio := maxTorqueRatio after.1.limits after.2.safety.safeTorque
  safetyFlags := safetyFlags after.2

/-- What the three violation counters count: E-stops, kernel errors and interventions. -/
def TickOutput.Raises (output : TickOutput K) : Fin 3 → Bool
  | 0 => decide (output.flags &&& 2 ≠ 0)
  | 1 =>
    match output.result with
    | .ok _ => false
    | .error _ => true
  | 2 => output.safety.interventionTriggered

omit [Field K] [LinearOrder K] [FloorRing K] in
theorem safetyFlags_raises (output : TickOutput K) (j : Fin 3) :
    safetyFlags output &&& 2 ^ j.val ≠ 0 ↔ output.Raises j := by
  obtain ⟨torque, flags, result, safe, triggered, margin⟩ := output
  by_cases estop : flags &&& 2 = 0 <;> cases result <;> cases triggered <;> fin_cases j <;>
    simp [safetyFlags, TickOutput.Raises, estop]

variable [SquareRoot K] [ExactSolver K]

/-- The ticks of a run, each with what it leaves behind. -/
def daemonTicks (s : DaemonState K) :
    List (TimedInput K) → List (TimedInput K × DaemonState K × TickOutput K)
  | [] => []
  | timed :: rest =>
    let after := tick daemonObstacles s timed.observed.input
    (timed, after) :: daemonTicks after.1 rest

def pushedFrames (s : DaemonState K) (run : List (TimedInput K)) :
    List (KinematicTelemetryFrame K) :=
  (daemonTicks s run).map fun ticked => pushedFrame ticked.1 ticked.2

omit [FloorRing K] in
theorem daemonTicks_length (s : DaemonState K) (run : List (TimedInput K)) :
    (daemonTicks s run).length = run.length := by
  induction run generalizing s with
  | nil => rfl
  | cons timed rest ih => exact congrArg (· + 1) (ih _)

/-- How many ticks of a run raise a violation. -/
def raising (s : DaemonState K) (run : List (TimedInput K)) (j : Fin 3) : Nat :=
  (daemonTicks s run).countP fun ticked => ticked.2.2.Raises j

theorem countP_pushedFrames (s : DaemonState K) (run : List (TimedInput K)) (j : Fin 3) :
    (pushedFrames s run).countP (fun frame => decide (frame.safetyFlags &&& 2 ^ j.val ≠ 0)) =
      raising s run j := by
  rw [pushedFrames, List.countP_map, raising]
  refine List.countP_congr fun ticked _ => ?_
  simp only [Function.comp_apply, decide_eq_true_eq]
  exact safetyFlags_raises ticked.2.2 j

end Pushes

section Ratio

variable {K : Type} [Field K] [LinearOrder K] [IsStrictOrderedRing K] [FloorRing K]

/-- Full torque and its tolerance, as a share of the ceiling. -/
theorem narrow_ratio {x : K} (nonneg : 0 ≤ x) (h : x ≤ 87.0001 / 87) :
    ∃ y, narrow (.fin x) = .fin y ∧ 0 ≤ y ∧ y ≤ 1.000003814697265625 := by
  have top : (magnitude 1065353248 : K) = 1.000003814697265625 := by
    rw [magnitude_normal (m := 8388640) (e := 23) (by norm_num) (by norm_num) (by norm_num)]
    norm_num
  have below : |x| ≤ magnitude 1065353248 := by
    rw [top, abs_of_nonneg nonneg]
    exact h.trans (by norm_num)
  obtain ⟨y, narrowed, bound, sign, _⟩ := narrow_le (by decide) below
  rw [abs_of_nonneg (sign nonneg), top] at bound
  exact ⟨y, narrowed, sign nonneg, bound⟩

theorem maxTorqueRatio_bounds {limits : KinematicLimits K} {torque : Fin DOF → K}
    (arm : ∀ i, limits.torqueMax i = 87) (full : ∀ i, |torque i| ≤ 87.0001) :
    ∃ ratio, maxTorqueRatio limits (fun i => .fin (torque i)) = .fin ratio ∧ 0 ≤ ratio ∧
      ratio ≤ 1.000003814697265625 := by
  refine List.foldlRecOn (motive := fun largest : Ieee K => ∃ ratio, largest = .fin ratio ∧
    0 ≤ ratio ∧ ratio ≤ 1.000003814697265625) _ _ ⟨0, rfl, le_rfl, by norm_num⟩ ?_
  rintro largest held i _
  have ceiling : (87 : K) ≠ 0 := by norm_num
  have share : (Ieee.fin (torque i)).abs / .fin (limits.torqueMax i) = .fin (|torque i| / 87) := by
    rw [arm i]
    exact Ieee.fin_div_fin _ ceiling
  have nonneg : 0 ≤ |torque i| / 87 := div_nonneg (abs_nonneg _) (by norm_num)
  have most : |torque i| / 87 ≤ 87.0001 / 87 := div_le_div_of_nonneg_right (full i) (by norm_num)
  obtain ⟨y, narrowed, low, high⟩ := narrow_ratio nonneg most
  dsimp only
  split
  next => exact ⟨y, by rw [share, narrowed], low, high⟩
  next => exact held

variable [SquareRoot K] [ExactSolver K]

theorem daemonTicks_ratio {s : DaemonState K} {q qDot : Fin DOF → K} (h : PlantSlow s q qDot)
    (run : List (TimedInput K)) :
    ∀ ticked ∈ daemonTicks s run, ∃ ratio,
      maxTorqueRatio ticked.2.1.limits ticked.2.2.safety.safeTorque = .fin ratio ∧ 0 ≤ ratio ∧
        ratio ≤ 1.000003814697265625 := by
  induction run generalizing s q qDot with
  | nil => exact fun _ member => absurd member List.not_mem_nil
  | cons timed rest ih =>
    obtain ⟨torque, applied, full⟩ := h.applied daemonObstacles timed.observed.input
    have next := h.tick applied full
    intro ticked member
    rcases List.mem_cons.mp member with rfl | member
    · simp only [applied]
      exact maxTorqueRatio_bounds next.arm.torqueMax full
    · exact ih next ticked member

end Ratio

section Gauge

variable {K : Type} [Field K] {P : Ieee K → Prop}

/-- The gauge holds what was last stored, or its start. -/
theorem recordedAfter_torqueRatio (start : P (.fin 0)) {updates : List (MetricUpdate K)}
    (stored : ∀ value, .torqueRatio value ∈ updates → P value) :
    P (recordedAfter updates).torqueRatio := by
  refine List.foldlRecOn (motive := fun m : RecordedMetrics K => P m.torqueRatio) updates _ start
    fun m held update member => ?_
  cases update with
  | torqueRatio value => exact stored value member
  | _ => exact held

variable [LinearOrder K] [FloorSemiring K] [RoundedMul K]

theorem torqueRatio_mem_recordAll {frames : List (KinematicTelemetryFrame K)} {value : Ieee K}
    (member : .torqueRatio value ∈ recordAll frames) :
    ∃ frame ∈ frames, frame.maxTorqueSaturationRatio = value := by
  obtain ⟨frame, among, update⟩ := List.mem_flatMap.mp member
  refine ⟨frame, among, ?_⟩
  unfold recordUpdates at update
  split_ifs at update <;> simp_all

theorem recordAll_violations (j : Fin 3) (frames : List (KinematicTelemetryFrame K)) :
    ((recordAll frames).map (MetricUpdate.violates j)).sum =
      frames.countP fun frame => decide (frame.safetyFlags &&& 2 ^ j.val ≠ 0) := by
  rw [recordAll_weight]
  simp only [recordUpdates_violates]
  induction frames with
  | nil => rfl
  | cons frame rest ih =>
    rw [List.map_cons, List.sum_cons, List.countP_cons, ih, Nat.add_comm]
    simp only [decide_eq_true_eq]

end Gauge

section Shutdown

variable {K : Type} {capacity : Nat} [NeZero capacity] [Field K] [LinearOrder K] [FloorRing K]
  [RoundedMul K] [IsStrictOrderedRing K] [SquareRoot K] [ExactSolver K]

/-- What the metrics of a daemon's run come to. Its `stop` returns when every frame that got
into the queue is recorded, so that the counters miss the dropped ticks and no others, and
the torque gauge shows no more than full torque with its tolerance. -/
theorem shutdown_metrics (now : Int) {run : List (TimedInput K)} {turns : List (WorkerTurn K)}
    {call : OwnerCall K}
    (pushes : (TelemetryWorker.init : TelemetryWorker K capacity).begun turns =
      pushedFrames (daemonStart now) run)
    (joining : ((TelemetryWorker.init : TelemetryWorker K capacity).run turns).owner = .stopJoin)
    (returned : (((TelemetryWorker.init : TelemetryWorker K capacity).run turns).ownerStep
      call).owner = .idle) :
    let s := (TelemetryWorker.init : TelemetryWorker K capacity).run turns
    let m := (s.ownerStep call).metrics
    m = recordedAfter (recordAll s.queue.accepted) ∧
      s.queue.accepted.Sublist (pushedFrames (daemonStart now) run) ∧
      (∃ drops, s.queue.ring.dropped = drops % 2 ^ 64 ∧
        s.queue.accepted.length + drops = run.length ∧
        ∀ j, ∃ n, m.safetyViolations j = n % 2 ^ 64 ∧ n ≤ raising (daemonStart now) run j ∧
          raising (daemonStart now) run j ≤ n + drops) ∧
      ∃ ratio, m.torqueRatio = .fin ratio ∧ 0 ≤ ratio ∧ ratio ≤ 1.000003814697265625 := by
  intro s m
  have inv : DrainInv recordUpdates (fun m update => update.apply m) RecordedMetrics.start
      s.drained := TelemetryWorker.inv turns
  have waits : s.drained.owner = .stopJoin := congrArg OwnerPc.place joining
  have done : (s.drained.ownerStep call.queueCall).owner = .idle := by
    rw [← s.drained_ownerStep call]
    exact congrArg OwnerPc.place returned
  have gone : s.drained.thread = .finished := finished_of_returned waits done
  have metrics : m = recordedAfter (recordAll s.queue.accepted) := by
    have stopped := congrArg DrainedQueue.state (s.drained_ownerStep call)
    rw [ownerStep_joined waits gone] at stopped
    exact stopped.trans (inv.finished_state gone).2
  have among : s.queue.accepted.Sublist (pushedFrames (daemonStart now) run) :=
    pushes ▸ TelemetryWorker.accepted_begun turns
  have quiet : s.queue.producer = .idle := inv.producer.mpr (by rw [waits]; exact id)
  obtain ⟨drops, counter, total⟩ := TelemetryWorker.pushes_account turns quiet
  rw [pushes, pushedFrames, List.length_map, daemonTicks_length] at total
  refine ⟨metrics, among, ⟨drops, counter, total, fun j => ?_⟩, ?_⟩
  · refine ⟨s.queue.accepted.countP fun frame => decide (frame.safetyFlags &&& 2 ^ j.val ≠ 0),
      ?_, ?_, ?_⟩
    · rw [metrics, recordedAfter_violation, recordAll_violations]
    · rw [← countP_pushedFrames]
      exact among.countP_le
    · have missing := among.le_countP fun frame => decide (frame.safetyFlags &&& 2 ^ j.val ≠ 0)
      rw [countP_pushedFrames, pushedFrames, List.length_map, daemonTicks_length] at missing
      have total : s.queue.accepted.length + drops = run.length := total
      omega
  · rw [metrics]
    refine recordedAfter_torqueRatio (P := fun value => ∃ ratio, value = .fin ratio ∧ 0 ≤ ratio ∧
      ratio ≤ 1.000003814697265625) ⟨0, rfl, le_rfl, by norm_num⟩ fun value stored => ?_
    obtain ⟨frame, member, rfl⟩ := torqueRatio_mem_recordAll stored
    obtain ⟨ticked, ran, rfl⟩ := List.mem_map.mp (among.subset member)
    exact daemonTicks_ratio (daemonStart_slow now) run ticked ran

end Shutdown

section Refused

/-- Products of floats, rounded to the nearest float; those of doubles are left exact. -/
noncomputable instance nearestReals : RoundedMul ℝ where
  single x y := narrow (x * y)
  double x y := x * y

/-- A run of one tick, which refuses its command. -/
noncomputable def refusedTick : TimedInput ℝ := ⟨refusedCommand, 120000⟩

noncomputable def refusedPush : KinematicTelemetryFrame ℝ :=
  pushedFrame refusedTick (tick daemonObstacles (daemonStart 0) refusedCommand.input)

theorem refusedPush_flags : refusedPush.safetyFlags = 6 := by
  have refused := refusedCommand_refused
  rcases tick_result daemonObstacles (daemonStart_slow 0) refusedCommand.input with
    ⟨_, ⟨e, error⟩, safety⟩ | ⟨finite, _⟩
  · show safetyFlags _ = 6
    simp only [safetyFlags, error, safety]
    rfl
  · exact absurd refused finite

/-- The daemon's calls for a run of one tick, then the worker's turns until it is done. -/
def oneTickTurns (frame : KinematicTelemetryFrame ℝ) : List (WorkerTurn ℝ) :=
  List.replicate 3 (.owner .start) ++ List.replicate 5 (.owner (.tryPush frame)) ++
    List.replicate 2 (.owner .stop) ++ List.replicate 16 .worker

instance (pc : OwnerPc ℝ) : Decidable (pc = .idle) :=
  match pc with
  | .idle => isTrue rfl
  | .startExchange | .startSpawn | .push _ | .stopExchange | .stopJoin =>
    isFalse (by simp)

instance (pc : OwnerPc ℝ) : Decidable (pc = .stopJoin) :=
  match pc with
  | .stopJoin => isTrue rfl
  | .idle | .startExchange | .startSpawn | .push _ | .stopExchange => isFalse (by simp)

theorem refusedPush_eq : refusedPush = { refusedPush with safetyFlags := 6 } := by
  rw [← refusedPush_flags]

theorem oneTick_begun (frame : KinematicTelemetryFrame ℝ) :
    (TelemetryWorker.init : TelemetryWorker ℝ 4096).begun (oneTickTurns frame) = [frame] := by
  rw [TelemetryWorker.begun, oneTickTurns, List.map_append, DrainedQueue.begun_append,
    List.map_replicate]
  refine (congrArg (_ ++ ·) (DrainedQueue.begun_threads _ 16)).trans ?_
  rfl

theorem oneTick_stops :
    let s := (TelemetryWorker.init : TelemetryWorker ℝ 4096).run (oneTickTurns refusedPush)
    s.owner = .stopJoin ∧ (s.ownerStep .stop).owner = .idle := by
  rw [refusedPush_eq]
  decide +kernel

theorem shutdown_metrics_refused :
    let s := (TelemetryWorker.init : TelemetryWorker ℝ 4096).run (oneTickTurns refusedPush)
    let m := (s.ownerStep .stop).metrics
    m = recordedAfter (recordAll s.queue.accepted) ∧
      s.queue.accepted.Sublist (pushedFrames (daemonStart 0) [refusedTick]) ∧
      (∃ drops, s.queue.ring.dropped = drops % 2 ^ 64 ∧
        s.queue.accepted.length + drops = [refusedTick].length ∧
        ∀ j, ∃ n, m.safetyViolations j = n % 2 ^ 64 ∧ n ≤ raising (daemonStart 0) [refusedTick] j ∧
          raising (daemonStart 0) [refusedTick] j ≤ n + drops) ∧
      ∃ ratio, m.torqueRatio = .fin ratio ∧ 0 ≤ ratio ∧ ratio ≤ 1.000003814697265625 :=
  shutdown_metrics 0 (oneTick_begun refusedPush) oneTick_stops.1
    oneTick_stops.2

end Refused

end NeuroKinetic
