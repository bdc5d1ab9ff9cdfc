import NeuroKinetic.Library.Binary32Order
import NeuroKinetic.RejectedFrames
import NeuroKinetic.ReportedRuns
import NeuroKinetic.SlotWords

open Binary32 RidgeProjection

namespace NeuroKinetic

section Frames

variable {K : Type} [Field K] [LinearOrder K] [FloorRing K]

/-- The telemetry slot that a tick leaves behind, under the sequence of its publication. -/
def publishedFrame (seq : Nat) (systemClock : Int) (after : DaemonState K × TickOutput K) :
    TelemetrySlot K where
  seq := seq
  timestampNs := (BitVec.ofInt 64 systemClock).toNat
  jointPositions := fun i => narrow (after.1.state.q i)
  jointVelocities := fun i => narrow (after.1.state.qDot i)
  appliedTorques := fun i => narrow (after.2.safety.safeTorque i)
  barrierMargin := narrow after.2.safety.barrierMargin
  cbfIntervention := if after.2.safety.interventionTriggered then 1 else 0
  errorCode :=
    match after.2.result with
    | .ok _ => 0
    | .error _ => 1
  watchdogTripped := if after.1.watchdog.tripped then 1 else 0

end Frames

section Bounds

variable {K : Type} [Field K] [LinearOrder K] [IsStrictOrderedRing K]

theorem jointStep_position {q qDot torque most : K} (position : |q| ≤ most)
    (speed : |(jointStep q qDot torque).2| ≤ 0.8527) :
    |(jointStep q qDot torque).1| ≤ most + 0.0018 := by
  obtain ⟨low, high⟩ := abs_le.mp speed
  obtain ⟨left, right⟩ := abs_le.mp position
  have moved : (jointStep q qDot torque).1 = q + (jointStep q qDot torque).2 * 0.002 := rfl
  rw [moved, abs_le]
  constructor <;> linarith

variable [SquareRoot K] [ExactSolver K]

/-- Between two ticks no joint moves further than two milliradians. -/
theorem runTicks_slow_within (obstacles : List (Obstacle K)) {s : DaemonState K}
    {q qDot : Fin DOF → K} {most : K} (h : PlantSlow s q qDot) (within : ∀ i, |q i| ≤ most)
    (inputs : List (TickInput K)) :
    ∃ q' qDot', PlantSlow (runTicks obstacles s inputs) q' qDot' ∧
      ∀ i, |q' i| ≤ most + 0.0018 * inputs.length := by
  induction inputs generalizing s q qDot most with
  | nil => exact ⟨q, qDot, h, fun i => by simpa using within i⟩
  | cons input rest ih =>
    obtain ⟨torque, applied, full⟩ := h.applied obstacles input
    have next := h.tick applied full
    have moved := fun i => jointStep_position (within i) (next.speed i)
    obtain ⟨q', qDot', slow, bound⟩ := ih next moved
    refine ⟨q', qDot', slow, fun i => (bound i).trans_eq ?_⟩
    rw [List.length_cons]
    push_cast
    ring

end Bounds

section Margin

variable {K : Type} [Field K] [LinearOrder K] [IsStrictOrderedRing K] [SquareRoot K]
  [LawfulSquareRoot K]

/-- The margin the filter reports: negative under every margin that is a number, and the
start of the search under one that is none. -/
theorem minMargin_daemon (limits : KinematicLimits K) (w : Watchdog) (input : TickInput K) :
    (input.command.UnorderedMargin ∧ minMargin (tickCommand limits w input).limits
        daemonState.endEffectorPos daemonObstacles = .fin 100) ∨
      (¬input.command.UnorderedMargin ∧ ∃ m, minMargin (tickCommand limits w input).limits
        daemonState.endEffectorPos daemonObstacles = .fin m ∧ -0.35 ≤ m ∧ m ≤ -0.016) := by
  by_cases unordered : input.command.UnorderedMargin
  · refine Or.inl ⟨unordered, ?_⟩
    have installed : (tickCommand limits w input).limits.minObstacleDistance = .nan := by
      simp only [tickCommand, ingestCommand_margin_nan.mpr unordered, stdClamp_nan]
    simp only [minMargin, daemonObstacles, List.foldl_cons, List.foldl_nil, computeObstacleBarrier,
      daemon_obstacle_gap, installed]
    rfl
  · refine Or.inr ⟨unordered, ?_⟩
    obtain ⟨margin, installed, least, most⟩ :=
      (tickCommand_marginInstalled limits w input).mpr unordered
    have near : SquareRoot.sqrt (0.0029 : K) < 0.054 :=
      LawfulSquareRoot.sqrt_lt (by norm_num) (by norm_num) (by norm_num)
    have nonneg : 0 ≤ SquareRoot.sqrt (0.0029 : K) := LawfulSquareRoot.sqrt_nonneg _ (by norm_num)
    have below : SquareRoot.sqrt (0.0029 : K) - (0.05 + margin) < 100 := by linarith
    refine ⟨SquareRoot.sqrt 0.0029 - (0.05 + margin), ?_, ?_, ?_⟩
    · simp only [minMargin, daemonObstacles, List.foldl_cons, List.foldl_nil,
        computeObstacleBarrier, daemon_obstacle_gap, installed, Ieee.fin_add_fin, Ieee.fin_sub_fin,
        Ieee.fin_lt_fin, if_pos below]
    · linarith
    · linarith

end Margin

section Reports

variable {K : Type} [Field K] [LinearOrder K]

/-- The command left after the seqlock and the overrides has an entry that is not finite. -/
def CommandRefused (s : DaemonState K) (input : TickInput K) : Prop :=
  ¬∃ u : Fin DOF → K, (tickCommand s.limits s.watchdog input).nominalTorque = fun i => .fin (u i)

/-- What a published frame tells of the tick that left it: `errorCode` is the refusal of the
command, and a margin that is not negative stands for that or for an unordered margin. -/
structure FrameReports (s : DaemonState K) (input : TickInput K) (frame : TelemetrySlot K) :
    Prop where
  refused : CommandRefused s input → frame.errorCode = 1 ∧ frame.appliedTorques = zeroTorque ∧
    frame.barrierMargin = .fin 0 ∧ frame.cbfIntervention = 1
  filtered : ¬CommandRefused s input → frame.errorCode = 0
  unordered : ¬CommandRefused s input → input.command.UnorderedMargin →
    frame.barrierMargin = .fin 100
  margin : ¬CommandRefused s input → ¬input.command.UnorderedMargin →
    ∃ m, frame.barrierMargin = .fin m ∧ -0.375 ≤ m ∧ m ≤ -0.015625
  torque : ∀ i, ∃ t, frame.appliedTorques i = .fin t ∧ |t| ≤ 87.000244140625
  velocity : ∀ i, ∃ v, frame.jointVelocities i = .fin v ∧ |v| ≤ 0.852783203125
  stopped : frame.watchdogTripped = 1 → frame.errorCode = 0

theorem not_refused_of_tripped {s : DaemonState K} {input : TickInput K}
    (tripped : (tickCommand s.limits s.watchdog input).watchdog.tripped) :
    ¬CommandRefused s input := by
  intro refused
  refine refused ⟨0, ?_⟩
  have watchdog : (s.watchdog.evaluate input.heartbeatPython input.tickStart).tripped = true :=
    tripped
  simp only [tickCommand, watchdog, true_or, if_true]
  rfl

variable [IsStrictOrderedRing K] [FloorRing K]

theorem narrow_torque {t : K} (h : |t| ≤ 87.0001) :
    ∃ y, narrow (.fin t) = .fin y ∧ |y| ≤ 87.000244140625 := by
  have top : (magnitude 1118699552 : K) = 87.000244140625 := by
    rw [magnitude_normal (m := 11403296) (e := 17) (by norm_num) (by norm_num) (by norm_num)]
    norm_num
  have below : |t| ≤ magnitude 1118699552 := by
    rw [top]
    exact h.trans (by norm_num)
  obtain ⟨y, narrowed, bound, _⟩ := narrow_le (by decide) below
  exact ⟨y, narrowed, top ▸ bound⟩

theorem narrow_velocity {v : K} (h : |v| ≤ 0.8527) :
    ∃ y, narrow (.fin v) = .fin y ∧ |y| ≤ 0.852783203125 := by
  have top : (magnitude 1062883328 : K) = 0.852783203125 := by
    rw [magnitude_normal (m := 14307328) (e := 24) (by norm_num) (by norm_num) (by norm_num)]
    norm_num
  have below : |v| ≤ magnitude 1062883328 := by
    rw [top]
    exact h.trans (by norm_num)
  obtain ⟨y, narrowed, bound, _⟩ := narrow_le (by decide) below
  exact ⟨y, narrowed, top ▸ bound⟩

theorem narrow_margin {m : K} (least : -0.35 ≤ m) (most : m ≤ -0.016) :
    ∃ y, narrow (.fin m) = .fin y ∧ -0.375 ≤ y ∧ y ≤ -0.015625 := by
  have top : (magnitude 1052770304 : K) = 0.375 := by
    rw [magnitude_normal (m := 12582912) (e := 25) (by norm_num) (by norm_num) (by norm_num)]
    norm_num
  have bottom : (magnitude 1015021568 : K) = 0.015625 := by
    rw [magnitude_normal (m := 8388608) (e := 29) (by norm_num) (by norm_num) (by norm_num)]
    norm_num
  have negative : m ≤ 0 := most.trans (by norm_num)
  have below : |m| ≤ magnitude 1052770304 := by
    rw [top, abs_of_nonpos negative]
    exact (neg_le.mp least).trans (by norm_num)
  have above : (magnitude 1015021568 : K) ≤ |m| := by
    rw [bottom, abs_of_nonpos negative]
    exact le_trans (by norm_num) (le_neg.mp most)
  obtain ⟨y, narrowed, bound, _, sign, least⟩ := narrow_le (by decide) below
  have size := least _ above
  rw [abs_of_nonpos (sign negative), top] at bound
  rw [abs_of_nonpos (sign negative), bottom] at size
  exact ⟨y, narrowed, neg_le.mp bound, le_neg.mp size⟩

theorem narrow_hundred : narrow (.fin 100 : Ieee K) = .fin 100 := by
  refine narrow_of_abs (n := 1120403456) (by decide) ?_
  rw [magnitude_normal (m := 13107200) (e := 17) (by norm_num) (by norm_num) (by norm_num)]
  norm_num

variable [SquareRoot K] [ExactSolver K]

omit [FloorRing K] in
theorem tick_result (obstacles : List (Obstacle K)) {s : DaemonState K} {q qDot : Fin DOF → K}
    (h : PlantSlow s q qDot) (input : TickInput K) :
    (CommandRefused s input ∧ (∃ e, (tick obstacles s input).2.result = .error e) ∧
        (tick obstacles s input).2.safety = fallbackOutput) ∨
      (¬CommandRefused s input ∧ (∃ output, (tick obstacles s input).2.result = .ok output) ∧
        (tick obstacles s input).2.safety.barrierMargin =
          minMargin (tickCommand s.limits s.watchdog input).limits s.state.endEffectorPos
            obstacles) := by
  have standard := (h.arm.tickCommand s.watchdog input).standard
  rcases Ieee.allFinite?_cases (tickCommand s.limits s.watchdog input).nominalTorque with
    ⟨u, command⟩ | refused
  · obtain ⟨intervened, answer⟩ := filterTorques_eq (standard.order q) qDot u
      s.state.endEffectorPos obstacles
    have state : s.state =
        ⟨fun i => .fin (q i), fun i => .fin (qDot i), s.state.endEffectorPos⟩ := by
      rw [← h.plant.position, ← h.plant.velocity]
    have result : (tick obstacles s input).2.result = filterTorques
        (tickCommand s.limits s.watchdog input).limits s.state (fun i => .fin (u i)) obstacles := by
      simp only [tick, command]
    rw [state, answer] at result
    refine Or.inr ⟨fun refused => refused ⟨u, command⟩, ⟨_, result⟩, ?_⟩
    simp only [tick, command]
    rw [state, answer]
  · have unordered : CommandRefused s input := by
      rintro ⟨u, command⟩
      rw [command, Ieee.allFinite?_fin] at refused
      cases refused
    refine Or.inl ⟨unordered, ?_, tick_fallback unordered⟩
    refine (filterTorques_error_iff _ _ _ _).mpr ?_
    intro finite
    obtain ⟨_, _, u, _, _, command⟩ := finite
    exact unordered ⟨u, command⟩

variable [LawfulSquareRoot K]

/-- One tick's frame, from any state of the plant that is reached. -/
theorem frameReports_tick {s : DaemonState K} {q qDot : Fin DOF → K} (h : PlantSlow s q qDot)
    (endEffector : s.state.endEffectorPos = daemonState.endEffectorPos) (input : TickInput K)
    (seq : Nat) (systemClock : Int) :
    FrameReports s input (publishedFrame seq systemClock (tick daemonObstacles s input)) := by
  obtain ⟨torque, applied, full⟩ := h.applied daemonObstacles input
  have next := h.tick applied full
  have torques : ∀ i, ∃ t, (publishedFrame seq systemClock
      (tick daemonObstacles s input)).appliedTorques i = .fin t ∧ |t| ≤ 87.000244140625 := by
    intro i
    simp only [publishedFrame, applied]
    exact narrow_torque (full i)
  have velocities : ∀ i, ∃ v, (publishedFrame seq systemClock
      (tick daemonObstacles s input)).jointVelocities i = .fin v ∧ |v| ≤ 0.852783203125 := by
    intro i
    simp only [publishedFrame, next.plant.velocity]
    exact narrow_velocity (next.speed i)
  rcases tick_result daemonObstacles h input with
    ⟨refused, ⟨e, error⟩, safety⟩ | ⟨finite, ⟨output, answer⟩, margin⟩
  · refine ⟨fun _ => ?_, fun finite => absurd refused finite, fun finite => absurd refused finite,
      fun finite => absurd refused finite, torques, velocities, fun tripped => ?_⟩
    · simp only [publishedFrame, error, safety, fallbackOutput, zeroTorque, narrow_zero, if_true,
        true_and, and_true]
      rfl
    · refine absurd refused (not_refused_of_tripped ?_)
      by_contra healthy
      have watchdog : (tick daemonObstacles s input).1.watchdog.tripped = false :=
        Bool.eq_false_iff.mpr healthy
      simp [publishedFrame, watchdog] at tripped
  · have code : (publishedFrame seq systemClock (tick daemonObstacles s input)).errorCode = 0 := by
      simp only [publishedFrame, answer]
    rw [endEffector] at margin
    refine ⟨fun refused => absurd refused finite, fun _ => code, fun _ unordered => ?_,
      fun _ ordered => ?_, torques, velocities, fun _ => code⟩
    · rcases minMargin_daemon s.limits s.watchdog input with ⟨_, reported⟩ | ⟨ordered, _⟩
      · simp only [publishedFrame, margin, reported, narrow_hundred]
      · exact absurd unordered ordered
    · rcases minMargin_daemon s.limits s.watchdog input with
        ⟨unordered, _⟩ | ⟨_, m, reported, least, most⟩
      · exact absurd unordered ordered
      · simp only [publishedFrame, margin, reported]
        exact narrow_margin least most

/-- The published error code and margin, tick by tick of any run: whatever the plant does, no
margin is positive but the 100 of an unordered one. -/
theorem published_frame_reports (now : Int) (before : List (TickInput K)) (input : TickInput K)
    (seq : Nat) (systemClock : Int) :
    FrameReports (runTicks daemonObstacles (daemonStart now) before) input
      (publishedFrame seq systemClock (tick daemonObstacles
        (runTicks daemonObstacles (daemonStart now) before) input)) := by
  obtain ⟨q, qDot, slow⟩ : ∃ q qDot,
      PlantSlow (runTicks daemonObstacles (daemonStart now) before : DaemonState K) q qDot :=
    runTicks_slow (daemonStart_slow now) before
  exact frameReports_tick slow (runTicks_endEffector _ _ _) input seq systemClock

end Reports

/-- A client's NaN torques, taken by the first tick. -/
noncomputable def refusedCommand : RecordedInput ℝ :=
  ⟨⟨0, 1, ⟨2, fun _ => .nan, 0, .fin 0.08, 2⟩⟩, 0⟩

theorem refusedCommand_refused : CommandRefused (daemonStart 0) refusedCommand.input := by
  rintro ⟨u, command⟩
  have entry := congrFun command 0
  cases entry

theorem published_frame_reports_refused :
    FrameReports (daemonStart 0) refusedCommand.input
      (publishedFrame 2 0 (tick daemonObstacles (daemonStart 0) refusedCommand.input)) :=
  published_frame_reports 0 [] refusedCommand.input 2 0

end NeuroKinetic
