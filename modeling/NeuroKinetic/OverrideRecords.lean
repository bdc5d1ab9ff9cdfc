import NeuroKinetic.BlackBox
import NeuroKinetic.InterventionFlag
import NeuroKinetic.FailSafePaths
import NeuroKinetic.SpeedBound

open Matrix RidgeProjection

namespace NeuroKinetic

section Restoring

variable {K : Type} [Field K] [LinearOrder K]

/-- The torque that the limit rows make of zero at a joint position. -/
def restoring (q : K) : K :=
  if 1e-4 < 870 * (|q| - 2.89) then min 87 (870 * (|q| - 2.89)) / 1.000001 else 0

theorem restoring_within [IsStrictOrderedRing K] {q : K} (within : |q| ≤ 2.89) : restoring q = 0 := by
  have inside : 870 * (|q| - 2.89) ≤ 1e-4 :=
    (mul_nonpos_of_nonneg_of_nonpos (by norm_num) (sub_nonpos.mpr within)).trans (by norm_num)
  rw [restoring, if_neg (not_lt.mpr inside)]

variable [IsStrictOrderedRing K] {limits : KinematicLimits K} {q : Fin DOF → K} {i : Fin DOF}

/-- Past its limit a joint is on the ramp, which the clamp alone ends. -/
theorem maxAllowedTorque_beyond (beyond : limits.qMax i - q i < 0) :
    maxAllowedTorque limits q i = max (-87) (870 * (limits.qMax i - q i)) := by
  have ramp : (limits.qMax i - q i) * 10 * 87 = 870 * (limits.qMax i - q i) := by ring
  have low : 870 * (limits.qMax i - q i) ≤ 87 := by linarith
  have value : stdClamp (870 * (limits.qMax i - q i)) (-87) 87 =
      max (-87) (870 * (limits.qMax i - q i)) := by
    rw [stdClamp_eq_max_min (by norm_num), min_eq_right low]
  have near : limits.qMax i - q i < 0.15 := beyond.trans (by norm_num)
  have last : limits.qMax i - q i ≤ 0.005 := beyond.le.trans (by norm_num)
  simp only [maxAllowedTorque, if_pos near, if_pos last, ramp, value]
  refine min_eq_left (max_le (by norm_num) ?_)
  norm_num
  linarith

theorem minAllowedTorque_beyond (beyond : q i - limits.qMin i < 0) :
    minAllowedTorque limits q i = min 87 (870 * (limits.qMin i - q i)) := by
  have mirrored : maxAllowedTorque (mirrorLimits limits) (-q) i = _ :=
    maxAllowedTorque_beyond (by rwa [mirrorLimits_gap])
  rw [mirrorLimits_gap] at mirrored
  rw [minAllowedTorque_eq_mirror, mirrored, ← min_neg_neg, neg_neg, ← mul_neg, neg_sub]

theorem pullBack_zero (arm : DaemonArm limits) (violated : LimitViolated limits q 0 i) :
    pullBack limits q 0 i = restoring (q i) := by
  have ht := arm.torqueMax i
  have past : 1e-4 < 870 * (|q i| - 2.89) := by
    by_contra inside
    exact (daemon_limitViolated_zero_iff arm).mpr (not_lt.mp inside) violated
  have share : (-87 : K) ≤ min 87 (870 * (|q i| - 2.89)) / 1.000001 := by
    have positive : (0 : K) ≤ min 87 (870 * (|q i| - 2.89)) :=
      le_min (by norm_num) (past.le.trans' (by norm_num))
    exact (div_nonneg positive (by norm_num)).trans' (by norm_num)
  rw [restoring, if_pos past]
  by_cases upper : UpperViolated limits q 0 i
  · have gap := (upperViolated_zero_iff ht).mp upper
    rw [arm.qMax] at gap
    have beyond : 2.89 - q i < 0 := by linarith
    have size : |q i| = q i := abs_of_pos (by norm_num at beyond; linarith)
    rw [size] at share ⊢
    rw [pullBack, if_pos upper, maxAllowedTorque_beyond (by rwa [arm.qMax]), arm.qMax,
      Pi.zero_apply, zero_sub, zero_sub, ← min_neg_neg, neg_neg, ← mul_neg, neg_sub,
      max_eq_right share]
  · have lower := violated.resolve_left upper
    have gap := (lowerViolated_zero_iff ht).mp lower
    rw [arm.qMin] at gap
    have beyond : q i - -2.89 < 0 := by linarith
    have size : |q i| = -q i := abs_of_neg (by norm_num at beyond; linarith)
    have order : -2.89 - q i = -q i - 2.89 := by ring
    rw [size] at share ⊢
    rw [pullBack, if_neg upper, if_pos lower, minAllowedTorque_beyond (by rwa [arm.qMin]), arm.qMin,
      Pi.zero_apply, sub_zero, sub_zero, order, max_eq_right share]

variable [SquareRoot K] (eePos : Fin 3 → Ieee K) (obstacles : List (Obstacle K))

theorem abs_filteredTorque_zero (arm : DaemonArm limits) (i : Fin DOF) :
    |filteredTorque limits q eePos obstacles 0 i| = restoring (q i) := by
  have alone : ¬obstacleActs limits q eePos obstacles 0 i :=
    fun h => not_obstacleViolated_zero (arm.torqueMax 5) eePos obstacles h.2.1
  by_cases violated : LimitViolated limits q 0 i
  · have moved := abs_filteredTorque_sub arm.standard (Or.inl ⟨i, violated⟩) alone
    rw [Pi.zero_apply, sub_zero] at moved
    rw [moved, pullBack_zero arm violated]
  · have inside := (daemon_limitViolated_zero_iff arm).mp violated
    have none : filteredTorque limits q eePos obstacles 0 i = 0 :=
      (filteredTorque_zero_iff arm.standard).mpr violated
    rw [none, abs_zero, restoring, if_neg (not_lt.mpr inside)]

theorem intervened_zero_iff [LawfulSquareRoot K] (arm : DaemonArm limits) :
    intervened (filteredTorque limits q eePos obstacles 0) 0 = true ↔
      1e-4 < ∑ i, restoring (q i) ^ 2 := by
  have change : (filteredTorque limits q eePos obstacles 0 - 0) ⬝ᵥ
      (filteredTorque limits q eePos obstacles 0 - 0) = ∑ i, restoring (q i) ^ 2 := by
    refine Finset.sum_congr rfl fun i _ => ?_
    rw [sub_zero, ← abs_filteredTorque_zero eePos obstacles arm i, sq_abs, sq]
  rw [intervened_iff, change]

end Restoring

section Runs

variable {K : Type} [Field K] [LinearOrder K]

/-- Some joints stand so far past their limits that the limit rows alone move the arm. -/
def PulledBack (state : ManipulatorState K) : Prop :=
  ∃ q : Fin DOF → K, state.q = (fun i => .fin (q i)) ∧ 1e-4 < ∑ i, restoring (q i) ^ 2

variable [FloorRing K] [SquareRoot K] [ExactSolver K]

/-- The override of a tick is in the store: marked as the watchdog's, and with the
joint-5 torque that the client had commanded. -/
def OverrideRecorded (s : RecordingDaemon K) (observed : RecordedInput K) : Prop :=
  ∃ r cf, tickRecord daemonObstacles s.daemon observed = some r ∧
    s.recorder.cfInterventions = some cf ∧
    (s.step daemonObstacles observed).recorder =
      ⟨some (cf.insert (interventionKey r.timestampNs) r.toBytes)⟩ ∧
    r.activeMask = 2 ∧
    r.commandedJoint5Torque = Binary32.cast (observed.input.command.nominalTorques 5)

theorem RecordingDaemon.run_daemon (obstacles : List (Obstacle K)) (s : RecordingDaemon K)
    (inputs : List (RecordedInput K)) :
    (s.run obstacles inputs).daemon =
      runTicks obstacles s.daemon (inputs.map RecordedInput.input) := by
  rw [RecordingDaemon.run, runTicks, List.foldl_map]
  exact (List.foldl_hom RecordingDaemon.daemon fun _ _ => rfl).symm

variable [IsStrictOrderedRing K] [LawfulSquareRoot K]

omit [FloorRing K] in
/-- A tick under the tripped watchdog reports an intervention if and only if the plant
pulls the arm back by itself, whatever the client commands. -/
theorem tick_overridden {s : DaemonState K} {q qDot : Fin DOF → K} (arm : DaemonArm s.limits)
    (plant : PlantAt s.state q qDot) {input : TickInput K}
    (tripped : (s.watchdog.evaluate input.heartbeatPython input.tickStart).tripped = true) :
    (tick daemonObstacles s input).2.safety.interventionTriggered = true ↔
      1e-4 < ∑ i, restoring (q i) ^ 2 := by
  have zero : (tickCommand s.limits s.watchdog input).nominalTorque = zeroTorque :=
    tickCommand_override (Or.inl tripped)
  have arm' := arm.tickCommand s.watchdog input
  have state : s.state = ⟨fun i => .fin (q i), fun i => .fin (qDot i), s.state.endEffectorPos⟩ := by
    rw [← plant.position, ← plant.velocity]
  have answer : filterTorques _ ⟨fun i => .fin (q i), fun i => .fin (qDot i), _⟩ zeroTorque
      daemonObstacles = _ :=
    filterTorques_flagged (arm'.standard.order q) qDot 0 s.state.endEffectorPos daemonObstacles
  rw [← intervened_zero_iff s.state.endEffectorPos daemonObstacles arm']
  simp only [tick, zero]
  rw [state, answer]

theorem overrideRecorded_iff {s : RecordingDaemon K} {q qDot : Fin DOF → K} {cf : ColumnFamily}
    (arm : DaemonArm s.daemon.limits) (plant : PlantAt s.daemon.state q qDot)
    (opened : s.recorder = ⟨some cf⟩) {observed : RecordedInput K}
    (tripped : (s.daemon.watchdog.evaluate observed.input.heartbeatPython
      observed.input.tickStart).tripped = true) :
    OverrideRecorded s observed ↔ PulledBack s.daemon.state ∧
      Binary32.cast (observed.input.command.nominalTorques 5) = Binary32.cast (.fin (0 : K)) := by
  have pulled : PulledBack s.daemon.state ↔ 1e-4 < ∑ i, restoring (q i) ^ 2 := by
    constructor
    · rintro ⟨q', position, moved⟩
      have same : q' = q := funext fun i =>
        Ieee.fin.inj (congrFun (position.symm.trans plant.position) i)
      rwa [same] at moved
    · exact fun moved => ⟨q, plant.position, moved⟩
  rw [pulled, ← tick_overridden arm plant tripped]
  have zero : (tick daemonObstacles s.daemon observed.input).2.nominalTorque = zeroTorque :=
    (tickCommand_override (Or.inl tripped) :
      (tickCommand s.daemon.limits s.daemon.watchdog observed.input).nominalTorque = zeroTorque)
  constructor
  · rintro ⟨r, _, record, _, _, _, torque⟩
    rw [tickRecord] at record
    split at record
    next intervened =>
      refine ⟨intervened, ?_⟩
      rw [← torque, ← Option.some.inj record, interventionRecord, zero]
      rfl
    next => cases record
  · rintro ⟨intervened, torque⟩
    have record : tickRecord daemonObstacles s.daemon observed = some (interventionRecord
        s.daemon.tickCount observed.systemClock
        (tick daemonObstacles s.daemon observed.input).1.watchdog.tripped
        (tick daemonObstacles s.daemon observed.input).2) := if_pos intervened
    refine ⟨_, cf, record, by rw [opened], ?_, if_pos tripped, ?_⟩
    · simp only [RecordingDaemon.step, record, opened, FlightRecorder.logCbfIntervention]
    · rw [torque, interventionRecord, zero]
      rfl

/-- In every run on an opened store: a tick under the tripped watchdog leaves the record
of its override if and only if the plant stands far enough past a limit and the client
had commanded no torque on joint 5. -/
theorem override_recorded_iff (now : Int) (cf : ColumnFamily) (before : List (RecordedInput K))
    (observed : RecordedInput K)
    (tripped : ((RecordingDaemon.run daemonObstacles ⟨daemonStart now, ⟨some cf⟩⟩
      before).daemon.watchdog.evaluate observed.input.heartbeatPython
        observed.input.tickStart).tripped = true) :
    OverrideRecorded (RecordingDaemon.run daemonObstacles ⟨daemonStart now, ⟨some cf⟩⟩ before)
        observed ↔
      PulledBack (RecordingDaemon.run daemonObstacles ⟨daemonStart now, ⟨some cf⟩⟩
          before).daemon.state ∧
        Binary32.cast (observed.input.command.nominalTorques 5) = Binary32.cast (.fin (0 : K)) := by
  let s := RecordingDaemon.run daemonObstacles ⟨daemonStart now, ⟨some cf⟩⟩ before
  have reached : s.daemon = _ := RecordingDaemon.run_daemon _ _ before
  obtain ⟨q, qDot, slow⟩ : ∃ q qDot, PlantSlow (runTicks daemonObstacles (daemonStart now)
      (before.map RecordedInput.input)) q qDot := runTicks_slow (daemonStart_slow now) _
  rw [← reached] at slow
  have opened := RecordingDaemon.run_recorder daemonObstacles ⟨daemonStart now, ⟨some cf⟩⟩ before
  rw [FlightRecorder.logAll_eq] at opened
  exact overrideRecorded_iff slow.arm slow.plant opened tripped

end Runs

section Pulled

variable {K : Type} [Field K] [LinearOrder K] [IsStrictOrderedRing K] [SquareRoot K]

/-- A command so large that its share of the penalty outweighs the rows: only the torque that
the hardware has is left. -/
theorem oversized_leak {limits : KinematicLimits K} (standard : StandardLimits limits)
    {q : Fin DOF → K} {i : Fin DOF} (hi : i ≠ 5) (eePos : Fin 3 → Ieee K)
    (obstacles : List (Obstacle K)) :
    87 ≤ filteredTorque limits q eePos obstacles (fun _ => 1000000000) i := by
  have ht := standard.torque i
  have outcome := filteredTorque_outcome (u := fun _ => 1000000000) (standard.order q i) eePos
    obstacles
  generalize filteredTorque limits q eePos obstacles (fun _ => 1000000000) i = t at outcome
  cases outcome with
  | accepted _ _ _ _ value =>
    rcases value with value | value
    · rw [value]
      norm_num
    · rw [value]
      exact le_saturated ht (by norm_num) le_rfl
  | ceiling _ _ =>
    have low := neg_le_maxAllowedTorque limits q ht
    have mean : 87 ≤ ridgeMean 1 1000000000 (maxAllowedTorque limits q i) := by
      apply le_ridgeMean zero_le_one
      norm_num
      linarith
    exact le_saturated ht mean le_rfl
  | floor lower _ =>
    have beyond := lt_of_lt_of_le lower (sub_le_self _ (by norm_num))
    exact absurd ((minAllowedTorque_le limits q ht).trans (by norm_num)) (not_le.mpr beyond)
  | obstacle _ _ acts => exact absurd acts.1 hi
  | ceilingObstacle _ acts => exact absurd acts.1 hi
  | floorObstacle _ acts => exact absurd acts.1 hi

/-- A run under such commands: where joint 0 would coast to has moved on. -/
structure Forced (s : DaemonState K) (q qDot : Fin DOF → K) (n : Nat) : Prop where
  slow : PlantSlow s q qDot
  watchdog : s.watchdog = ⟨n, 2000000 * n - 2000000, false⟩
  coasting : n * 0.0017 ≤ q 0 + 0.098 * qDot 0

variable [ExactSolver K]

theorem streamedTicks_forced (margin : K) (n : Nat) : ∃ q qDot, Forced (runTicks daemonObstacles
    (daemonStart (-2000000)) (streamedTicks 1000000000 margin n)) q qDot n := by
  induction n with
  | zero =>
    refine ⟨_, _, daemonStart_slow _, rfl, ?_⟩
    norm_num
  | succ n ih =>
    obtain ⟨q, qDot, forced⟩ := ih
    rw [streamedTicks, List.range_succ, List.map_append, runTicks, List.foldl_append]
    rw [streamedTicks, runTicks] at forced
    generalize List.foldl _ _ _ = s at forced ⊢
    obtain ⟨slow, watchdog, coasting⟩ := forced
    let input : TickInput K := ⟨2000000 * n, n + 1, 2 * n + 2, fun _ => .fin 1000000000, 1,
      .fin margin, 2 * n + 2⟩
    have beat : s.watchdog.evaluate (n + 1) (2000000 * n) = ⟨n + 1, 2000000 * n, false⟩ := by
      rw [watchdog, Watchdog.evaluate, if_pos (Nat.succ_ne_self n)]
    have command : (tickCommand s.limits s.watchdog input).nominalTorque =
        fun _ => .fin 1000000000 := by
      apply tickCommand_kept
      · exact ⟨by simp only [input]; omega, by simp only [input]; omega, rfl⟩
      · exact congrArg Watchdog.tripped beat
      · simp [input]
    have applied := tick_applied daemonObstacles slow.arm slow.plant command
    have standard := (slow.arm.tickCommand s.watchdog input).standard
    have full : ∀ i, |filteredTorque (tickCommand s.limits s.watchdog input).limits q
        s.state.endEffectorPos daemonObstacles (fun _ => 1000000000) i| ≤ 87.0001 :=
      fun i => abs_le.mpr ⟨neg_le_filteredTorque standard, filteredTorque_le_ceiling standard⟩
    have leak := oversized_leak standard (q := q) (i := 0) (by decide) s.state.endEffectorPos
      daemonObstacles
    refine ⟨_, _, slow.tick applied full, ?_, ?_⟩
    · show s.watchdog.evaluate (n + 1) (2000000 * n) = _
      rw [beat]
      push_cast
      ring_nf
    · simp only [jointStep]
      push_cast
      norm_num at coasting leak ⊢
      linarith

end Pulled

section Silenced

/-- Four seconds of oversized commands. -/
noncomputable def forcedRun : List (RecordedInput ℝ) :=
  (streamedTicks 1000000000 0.08 2000).map fun input => ⟨input, input.tickStart⟩

/-- A frame without torque, from a client that has then been silent for 200 ms. -/
noncomputable def released : RecordedInput ℝ :=
  ⟨⟨4198000000, 2000, 4002, zeroTorque, 1, .fin 0.08, 4002⟩, 4198000000⟩

theorem forcedRun_forced : ∃ q qDot, Forced (RecordingDaemon.run daemonObstacles
    ⟨daemonStart (-2000000), ⟨some ∅⟩⟩ forcedRun).daemon q qDot 2000 := by
  have inputs : forcedRun.map RecordedInput.input = streamedTicks 1000000000 0.08 2000 := by
    rw [forcedRun, List.map_map]
    exact List.map_id _
  rw [RecordingDaemon.run_daemon, inputs]
  exact streamedTicks_forced 0.08 2000

/-- The joints are past their limits, so that the override leaves a record. -/
theorem override_recorded_iff_pulled :
    OverrideRecorded (RecordingDaemon.run daemonObstacles ⟨daemonStart (-2000000), ⟨some ∅⟩⟩
      forcedRun) released := by
  obtain ⟨q, qDot, slow, watchdog, coasting⟩ := forcedRun_forced
  refine (override_recorded_iff (-2000000) ∅ forcedRun released ?_).mpr
    ⟨⟨q, slow.plant.position, ?_⟩, rfl⟩
  · rw [watchdog]
    rfl
  · have speed := (abs_le.mp (slow.speed 0)).2
    have beyond : 3 ≤ q 0 := by
      norm_num at coasting
      linarith
    have past : 87 ≤ 870 * (|q 0| - 2.89) := by
      rw [abs_of_nonneg (by linarith)]
      linarith
    have value : restoring (q 0) = 87 / 1.000001 := by
      rw [restoring, if_pos (by linarith), min_eq_left past]
    have one : restoring (q 0) ^ 2 ≤ ∑ i, restoring (q i) ^ 2 :=
      Finset.single_le_sum (f := fun i => restoring (q i) ^ 2) (fun i _ => sq_nonneg _)
        (Finset.mem_univ 0)
    rw [value] at one
    norm_num at one ⊢
    linarith

/-- The client's first sign of life, with no command yet. -/
noncomputable def connected : RecordedInput ℝ := ⟨⟨0, 1, 0, zeroTorque, 1, .fin 0.08, 0⟩, 0⟩

/-- Its first command, 10 Nm on joint 5, read when it has been silent for 200 ms. -/
noncomputable def silenced : RecordedInput ℝ :=
  ⟨⟨200000000, 1, 2, fun i => .fin ((Pi.single 5 10 : Fin DOF → ℝ) i), 1, .fin 0.08, 2⟩, 200000000⟩

/-- The run up to that command. -/
noncomputable def connectedDaemon : RecordingDaemon ℝ :=
  RecordingDaemon.run daemonObstacles ⟨daemonStart 0, ⟨some ∅⟩⟩ [connected]

theorem silenced_tripped : (connectedDaemon.daemon.watchdog.evaluate
    silenced.input.heartbeatPython silenced.input.tickStart).tripped = true := by
  have first : connectedDaemon.daemon.watchdog = ⟨1, 0, false⟩ := rfl
  rw [first]
  rfl

theorem start_within (i : Fin DOF) : |(![0, 0.2, 0, -1.2, 0, 2.80, 0] : Fin DOF → ℝ) i| ≤ 2.89 := by
  rw [abs_le]
  fin_cases i <;> norm_num

/-- Within the limits the arm rests, from one tick to the next. -/
theorem connected_plant :
    PlantAt connectedDaemon.daemon.state ![0, 0.2, 0, -1.2, 0, 2.80, 0] (fun _ => 0) := by
  let s : DaemonState ℝ := daemonStart 0
  have start : PlantAt s.state ![0, 0.2, 0, -1.2, 0, 2.80, 0] (fun _ => 0) := ⟨rfl, rfl⟩
  have zero : (tickCommand s.limits s.watchdog connected.input).nominalTorque = zeroTorque :=
    tickCommand_rejected fun accepted => accepted.2.1 rfl
  have arm : DaemonArm s.limits := DaemonArm.start
  have applied := tick_applied daemonObstacles arm start (u := 0) zero
  have rest : filteredTorque (tickCommand s.limits s.watchdog connected.input).limits
      ![0, 0.2, 0, -1.2, 0, 2.80, 0] s.state.endEffectorPos daemonObstacles 0 = 0 := by
    funext i
    have size := abs_filteredTorque_zero (q := ![0, 0.2, 0, -1.2, 0, 2.80, 0])
      s.state.endEffectorPos daemonObstacles (arm.tickCommand s.watchdog connected.input) i
    rw [restoring_within (start_within i)] at size
    exact abs_eq_zero.mp size
  rw [rest] at applied
  have moved := tick_plantAt start applied
  simp only [jointStep, Pi.zero_apply, zero_div, zero_mul, add_zero] at moved
  exact moved

/-- The override of a command of 10 Nm is not recorded at all. -/
theorem override_unrecorded :
    (connectedDaemon.daemon.watchdog.evaluate silenced.input.heartbeatPython
        silenced.input.tickStart).tripped = true ∧
      silenced.input.command.Accepted ∧ silenced.input.command.nominalTorques 5 = .fin 10 ∧
      tickRecord daemonObstacles connectedDaemon.daemon silenced = none ∧
      ¬OverrideRecorded connectedDaemon silenced := by
  have still : ¬(1e-4 : ℝ) < ∑ i, restoring ((![0, 0.2, 0, -1.2, 0, 2.80, 0] : Fin DOF → ℝ) i) ^ 2 := by
    simp only [restoring_within (start_within _)]
    norm_num
  have quiet : ¬(tick daemonObstacles connectedDaemon.daemon
      silenced.input).2.safety.interventionTriggered = true := by
    have arm : DaemonArm connectedDaemon.daemon.limits :=
      DaemonArm.start.tickCommand (Watchdog.start 0) connected.input
    rw [tick_overridden arm connected_plant silenced_tripped]
    exact still
  have none : tickRecord daemonObstacles connectedDaemon.daemon silenced = none := if_neg quiet
  refine ⟨silenced_tripped, ⟨by decide, by decide, rfl⟩, ?_, none, ?_⟩
  · exact congrArg Ieee.fin (Pi.single_eq_same 5 10)
  · rintro ⟨r, _, record, _⟩
    cases none.symm.trans record

end Silenced

end NeuroKinetic
