import NeuroKinetic.FailSafePaths
import NeuroKinetic.Library.Binary32

open RidgeProjection

namespace NeuroKinetic

section Frames

variable {K : Type}

/-- A frame that a writer changed while the tick read it. -/
def CommandRead.Torn (r : CommandRead K) : Prop :=
  r.cmdSeq1 % 2 = 0 ∧ r.cmdSeq1 ≠ 0 ∧ r.cmdSeq1 ≠ r.cmdSeq2

/-- A slot that a tick does not read further than its sequence. -/
def CommandRead.Skipped (r : CommandRead K) : Prop := r.cmdSeq1 % 2 = 1 ∨ r.cmdSeq1 = 0

/-- The bits a tick pushes to the telemetry queue: E-stop, kernel error and intervention. -/
def safetyFlags (output : TickOutput K) : Nat :=
  (if output.flags &&& 2 ≠ 0 then 1 else 0) |||
  (match output.result with
    | .ok _ => 0
    | .error _ => 2) |||
  (if output.safety.interventionTriggered then 4 else 0)

theorem CommandRead.Torn.not_accepted {r : CommandRead K} (h : r.Torn) : ¬r.Accepted :=
  fun accepted => h.2.2 accepted.2.2

theorem CommandRead.Skipped.not_accepted {r : CommandRead K} (h : r.Skipped) : ¬r.Accepted := by
  rintro ⟨even, positive, _⟩
  rw [CommandRead.Skipped] at h
  omega

variable [Field K]

theorem ingestCommand_torn {r : CommandRead K} (h : r.Torn) :
    ingestCommand r = ⟨zeroTorque, r.commandFlags, r.obstacleSafetyMargin⟩ := by
  simp only [ingestCommand, if_pos (And.intro h.1 h.2.1), if_pos h.2.2]

theorem ingestCommand_skipped {r : CommandRead K} (h : r.Skipped) :
    ingestCommand r = ⟨zeroTorque, 0, defaultMargin⟩ := by
  have unread : ¬(r.cmdSeq1 % 2 = 0 ∧ r.cmdSeq1 ≠ 0) := by
    rw [CommandRead.Skipped] at h
    omega
  simp only [ingestCommand, if_neg unread]

theorem safetyFlags_estop_iff (result : Except KernelErrorCode (SafetyOutput K))
    (safety : SafetyOutput K) (flags : Nat) :
    safetyFlags ⟨zeroTorque, flags, result, safety⟩ = safetyFlags ⟨zeroTorque, 0, result, safety⟩ ↔
      flags &&& 2 = 0 := by
  by_cases estop : flags &&& 2 = 0
  · simp [safetyFlags, estop]
  · refine iff_of_false ?_ estop
    simp only [safetyFlags, ne_eq, estop, not_false_eq_true, if_true]
    cases result <;> cases safety.interventionTriggered <;> simp

end Frames

section Clamp

variable {K : Type} [Field K] [LinearOrder K] [IsStrictOrderedRing K]

/-- The default of a skipped frame passes its own clamp, and no other margin becomes it. -/
theorem stdClamp_default_iff {m : Ieee K} :
    stdClamp m (.fin 0.02) (.fin 0.30) = defaultMargin ↔ m = defaultMargin := by
  have low : (0.02 : K) < ((10737418 : Nat) : K) / ((134217728 : Nat) : K) := by norm_num
  have high : ((10737418 : Nat) : K) / ((134217728 : Nat) : K) < 0.30 := by norm_num
  unfold defaultMargin
  constructor
  · intro installed
    rw [stdClamp] at installed
    split at installed
    next => exact absurd (Ieee.fin.inj installed) low.ne
    next =>
      split at installed
      next => exact absurd (Ieee.fin.inj installed) high.ne'
      next => exact installed
  · rintro rfl
    rw [stdClamp, if_neg (Ieee.fin_lt_fin.not.mpr low.not_gt),
      if_neg (Ieee.fin_lt_fin.not.mpr high.not_gt)]

end Clamp

section Ticks

variable {K : Type} [Field K] [LinearOrder K] [FloorRing K]

/-- What a rejected frame and an absent one are to have in common. -/
structure SameTick (a b : DaemonState K × TickOutput K) : Prop where
  margin : a.1.limits.minObstacleDistance = b.1.limits.minObstacleDistance
  torque : a.2.safety.safeTorque = b.2.safety.safeTorque
  published : Binary32.cast a.2.safety.barrierMargin = Binary32.cast b.2.safety.barrierMargin
  flags : safetyFlags a.2 = safetyFlags b.2

variable [IsStrictOrderedRing K] [SquareRoot K] [ExactSolver K]

omit [FloorRing K] in
/-- The rollback reaches the torques: none of a torn frame's is ever applied. -/
theorem torn_torque (obstacles : List (Obstacle K)) {s : DaemonState K} (arm : DaemonArm s.limits)
    (tickStart : Int) (heartbeat : Nat) {torn skipped : CommandRead K} (h : torn.Torn)
    (h' : skipped.Skipped) :
    (tick obstacles s ⟨tickStart, heartbeat, torn⟩).2.safety.safeTorque =
      (tick obstacles s ⟨tickStart, heartbeat, skipped⟩).2.safety.safeTorque := by
  have zero : (tickCommand s.limits s.watchdog ⟨tickStart, heartbeat, torn⟩).nominalTorque =
      zeroTorque := tickCommand_rejected h.not_accepted
  have zero' : (tickCommand s.limits s.watchdog ⟨tickStart, heartbeat, skipped⟩).nominalTorque =
      zeroTorque := tickCommand_rejected h'.not_accepted
  by_cases finite : JointDataFinite s.state zeroTorque
  · obtain ⟨q, qDot, _, position, velocity, _⟩ := finite
    have plant : PlantAt s.state q qDot := ⟨position, velocity⟩
    rw [tick_applied obstacles arm plant (u := 0) zero,
      tick_applied obstacles arm plant (u := 0) zero']
    have quiet : ∀ command : CommandRead K, ¬ObstacleViolated
        (tickCommand s.limits s.watchdog ⟨tickStart, heartbeat, command⟩).limits
        s.state.endEffectorPos obstacles 0 := fun command =>
      not_obstacleViolated_zero ((arm.tickCommand s.watchdog _).torqueMax 5) _ _
    rw [filteredTorque_quiet (quiet torn), filteredTorque_quiet (quiet skipped)]
    rfl
  · have refused : ∀ command : CommandRead K,
        (tickCommand s.limits s.watchdog ⟨tickStart, heartbeat, command⟩).nominalTorque =
          zeroTorque →
        (tick obstacles s ⟨tickStart, heartbeat, command⟩).2.safety = fallbackOutput := by
      intro command rolledBack
      obtain ⟨e, error⟩ := (filterTorques_error_iff
        (tickCommand s.limits s.watchdog ⟨tickStart, heartbeat, command⟩).limits s.state _
        obstacles).mpr finite
      simp only [tick, rolledBack, error]
    rw [refused torn zero, refused skipped zero']

/-- A torn frame whose tick is that of an absent one has an absent one's margin and no E-stop. -/
theorem absent_of_sameTick {obstacles : List (Obstacle K)} {s : DaemonState K} {tickStart : Int}
    {heartbeat : Nat} {torn skipped : CommandRead K} (h : torn.Torn) (h' : skipped.Skipped)
    (same : SameTick (tick obstacles s ⟨tickStart, heartbeat, torn⟩)
      (tick obstacles s ⟨tickStart, heartbeat, skipped⟩)) :
    torn.obstacleSafetyMargin = defaultMargin ∧ torn.commandFlags &&& 2 = 0 := by
  have clamped : stdClamp (defaultMargin : Ieee K) (.fin 0.02) (.fin 0.30) = defaultMargin :=
    stdClamp_default_iff.mpr rfl
  obtain ⟨margin, _, _, flags⟩ := same
  have default : torn.obstacleSafetyMargin = defaultMargin := by
    simp only [tick, tickCommand, ingestCommand_torn h, ingestCommand_skipped h', clamped]
      at margin
    exact stdClamp_default_iff.mp margin
  simp only [tick, tickCommand, ingestCommand_torn h, ingestCommand_skipped h', default,
    ite_self] at flags
  exact ⟨default, (safetyFlags_estop_iff _ _ _).mp flags⟩

/-- Of a torn frame, the margin and the flags outlive the rollback: its tick is that of an
absent frame if and only if they are an absent frame's own. -/
theorem rejected_frame_iff (obstacles : List (Obstacle K)) (s : DaemonState K) (tickStart : Int)
    (heartbeat : Nat) {torn skipped : CommandRead K} (h : torn.Torn) (h' : skipped.Skipped) :
    SameTick (tick obstacles s ⟨tickStart, heartbeat, torn⟩)
        (tick obstacles s ⟨tickStart, heartbeat, skipped⟩) ↔
      torn.obstacleSafetyMargin = defaultMargin ∧ torn.commandFlags &&& 2 = 0 := by
  constructor
  · exact absent_of_sameTick h h'
  · rintro ⟨default, estop⟩
    constructor <;>
      simp only [tick, tickCommand, ingestCommand_torn h, ingestCommand_skipped h', default,
        ite_self]
    exact (safetyFlags_estop_iff _ _ _).mpr estop

end Ticks

section Tuned

/-- A client retunes the margin from 0.08f to 0.30 while the first tick reads the slot. -/
noncomputable def tunedFrame : CommandRead ℝ := ⟨2, zeroTorque, 1, .fin 0.30, 4⟩

/-- A client asserts the E-stop while the first tick reads the slot. -/
noncomputable def stoppedFrame : CommandRead ℝ := ⟨2, zeroTorque, 2, defaultMargin, 4⟩

/-- A client dispatches torques twice, the second time while the first tick reads the slot. -/
noncomputable def dispatchedFrame : CommandRead ℝ := ⟨2, fun _ => .fin 5, 1, defaultMargin, 4⟩

/-- The slot in the middle of a write. -/
noncomputable def oddFrame : CommandRead ℝ := ⟨3, zeroTorque, 1, .fin 0.30, 3⟩

theorem rejected_frame_iff_dispatched :
    SameTick (tick daemonObstacles (daemonStart 0) ⟨0, 1, dispatchedFrame⟩)
      (tick daemonObstacles (daemonStart 0) ⟨0, 1, oddFrame⟩) :=
  (rejected_frame_iff daemonObstacles (daemonStart 0) 0 1 ⟨by decide, by decide, by decide⟩
    (Or.inl (by decide))).mpr ⟨rfl, by decide⟩

/-- A rejected margin is installed, and a rejected E-stop is counted. -/
theorem rejected_frame_leaks :
    (tick daemonObstacles (daemonStart 0) ⟨0, 1, tunedFrame⟩).1.limits.minObstacleDistance =
        .fin 0.30 ∧
      ¬SameTick (tick daemonObstacles (daemonStart 0) ⟨0, 1, tunedFrame⟩)
        (tick daemonObstacles (daemonStart 0) ⟨0, 1, oddFrame⟩) ∧
      ¬SameTick (tick daemonObstacles (daemonStart 0) ⟨0, 1, stoppedFrame⟩)
        (tick daemonObstacles (daemonStart 0) ⟨0, 1, oddFrame⟩) := by
  have torn : tunedFrame.Torn := ⟨by decide, by decide, by decide⟩
  have odd : oddFrame.Skipped := Or.inl (by decide)
  refine ⟨?_, fun same => ?_, fun same => ?_⟩
  · have above : ¬Ieee.fin (0.30 : ℝ) < .fin 0.02 := by
      rw [Ieee.fin_lt_fin]
      norm_num
    have below : ¬Ieee.fin (0.30 : ℝ) < .fin 0.30 := Ieee.fin_lt_fin.not.mpr (lt_irrefl _)
    simp only [tick, tickCommand, ingestCommand_torn torn]
    show stdClamp (Ieee.fin (0.30 : ℝ)) (.fin 0.02) (.fin 0.30) = .fin 0.30
    rw [stdClamp, if_neg above, if_neg below]
  · have margin := (absent_of_sameTick torn odd same).1
    have value : (0.30 : ℝ) = ((10737418 : Nat) : ℝ) / ((134217728 : Nat) : ℝ) :=
      Ieee.fin.inj margin
    norm_num at value
  · have torn' : stoppedFrame.Torn := ⟨by decide, by decide, by decide⟩
    exact absurd (absent_of_sameTick torn' odd same).2 (by decide)

end Tuned

end NeuroKinetic
