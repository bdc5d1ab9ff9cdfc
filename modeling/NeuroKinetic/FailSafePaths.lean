import NeuroKinetic.FilterErrors
import NeuroKinetic.JointExits

open RidgeProjection

namespace NeuroKinetic

variable {K : Type} [Field K] [LinearOrder K] [IsStrictOrderedRing K]

section Zero

variable {limits : KinematicLimits K} {q : Fin DOF → K} {i : Fin DOF}

/-- A ceiling rejects the zero torque as soon as its ramp is below zero by the tolerance. -/
theorem upperViolated_zero_iff (ht : limits.torqueMax i = 87) :
    UpperViolated limits q 0 i ↔ 870 * (limits.qMax i - q i) < -1e-4 := by
  rw [UpperViolated, Pi.zero_apply]
  constructor
  · intro violated
    by_contra kept
    have ceiling : -1e-4 ≤ maxAllowedTorque limits q i := by
      apply le_maxAllowedTorque_of
      · exact le_stdClamp_of_le (by norm_num) (by linarith) (by norm_num)
      · norm_num
      · rw [ht]
        norm_num
    linarith
  · intro past
    have ceiling : maxAllowedTorque limits q i ≤ max (870 * (limits.qMax i - q i)) (-87) := by
      apply maxAllowedTorque_le_of
      · exact stdClamp_le_of_le (by norm_num) (le_max_of_le_left (by linarith)) (le_max_right _ _)
      · intro far
        norm_num at far past
        linarith
    have below : max (870 * (limits.qMax i - q i)) (-87) < -1e-4 := max_lt past (by norm_num)
    linarith

theorem lowerViolated_zero_iff (ht : limits.torqueMax i = 87) :
    LowerViolated limits q 0 i ↔ 870 * (q i - limits.qMin i) < -1e-4 := by
  have mirrored : UpperViolated (mirrorLimits limits) (-q) 0 i ↔ _ := upperViolated_zero_iff ht
  rw [mirrorLimits_gap] at mirrored
  rw [← mirrored, LowerViolated, UpperViolated, minAllowedTorque_eq_mirror, Pi.zero_apply]
  constructor <;> intro h <;> linarith

variable [SquareRoot K] {eePos : Fin 3 → Ieee K} {obstacles : List (Obstacle K)}

/-- The filter makes no torque of zero, except where a limit row is violated. -/
theorem filteredTorque_zero_iff (standard : StandardLimits limits) :
    filteredTorque limits q eePos obstacles 0 i = 0 ↔ ¬LimitViolated limits q 0 i := by
  have ht := standard.torque i
  have order := standard.order q i
  have alone : ¬obstacleActs limits q eePos obstacles 0 i :=
    fun h => not_obstacleViolated_zero (standard.torque 5) eePos obstacles h.2.1
  have tolerance : (0 : K) < 1e-4 := by norm_num
  by_cases violated : LimitViolated limits q 0 i
  · refine iff_of_false ?_ (not_not.mpr violated)
    rw [filteredTorque_limit order violated alone, ht, Pi.zero_apply]
    by_cases upper : UpperViolated limits q 0 i
    · have below : maxAllowedTorque limits q i < 0 :=
        lt_of_add_lt_of_nonneg_left upper tolerance.le
      rw [limitBound, if_pos upper]
      refine ne_of_lt ((saturate_lt_iff (by norm_num) (by norm_num)).mpr ?_)
      rw [ridgeMean, mul_zero, zero_add]
      exact div_neg_of_neg_of_pos below (by norm_num)
    · have above : 0 < minAllowedTorque limits q i :=
        lt_of_lt_of_le (violated.resolve_left upper) (sub_le_self _ tolerance.le)
      rw [limitBound, if_neg upper]
      refine ne_of_gt ((lt_saturate_iff (by norm_num) (by norm_num)).mpr ?_)
      rw [ridgeMean, mul_zero, zero_add]
      exact div_pos above (by norm_num)
  · refine iff_of_true ?_ violated
    rcases filteredTorque_free violated alone with value | value
    · exact value
    · rw [value, ht, Pi.zero_apply]
      exact stdClamp_of_mem (by norm_num) (by norm_num)

end Zero

section Daemon

/-- The daemon's joints at which the rows accept no torque at all. -/
theorem daemon_limitViolated_zero_iff {limits : KinematicLimits K} (arm : DaemonArm limits)
    {q : Fin DOF → K} {i : Fin DOF} :
    ¬LimitViolated limits q 0 i ↔ 870 * (|q i| - 2.89) ≤ 1e-4 := by
  have ht := arm.torqueMax i
  rw [LimitViolated, upperViolated_zero_iff ht, lowerViolated_zero_iff ht, arm.qMin, arm.qMax,
    not_or, not_lt, not_lt]
  rcases abs_cases (q i) with ⟨size, sign⟩ | ⟨size, sign⟩ <;> rw [size] <;> norm_num <;>
    constructor
  · rintro ⟨_, _⟩
    linarith
  · intro _
    constructor <;> linarith
  · rintro ⟨_, _⟩
    linarith
  · intro _
    constructor <;> linarith

variable [SquareRoot K] [ExactSolver K]

omit [IsStrictOrderedRing K] in
/-- A command that is not finite takes the fallback's constant. -/
theorem tick_fallback {obstacles : List (Obstacle K)} {s : DaemonState K} {input : TickInput K}
    (unordered : ¬∃ u : Fin DOF → K,
      (tickCommand s.limits s.watchdog input).nominalTorque = fun i => .fin (u i)) :
    (tick obstacles s input).2.safety = fallbackOutput := by
  have refused : ¬JointDataFinite s.state (tickCommand s.limits s.watchdog input).nominalTorque :=
    fun ⟨_, _, u, _, _, command⟩ => unordered ⟨u, command⟩
  obtain ⟨e, error⟩ := (filterTorques_error_iff (tickCommand s.limits s.watchdog input).limits
    s.state _ obstacles).mpr refused
  simp only [tick, error]

end Daemon

/-- In which plant states the fallback for a non-finite command and the zero command
of the other fail-safe paths apply the same torque: those that no limit row pulls back. -/
theorem failSafe_paths_iff {K : Type} [Field K] [LinearOrder K] [IsStrictOrderedRing K]
    [SquareRoot K] [ExactSolver K] (obstacles : List (Obstacle K)) {s : DaemonState K}
    {q qDot : Fin DOF → K} (arm : DaemonArm s.limits) (plant : PlantAt s.state q qDot)
    (refused zeroed : TickInput K)
    (unordered : ¬∃ u : Fin DOF → K,
      (tickCommand s.limits s.watchdog refused).nominalTorque = fun i => .fin (u i))
    (zero : (tickCommand s.limits s.watchdog zeroed).nominalTorque = zeroTorque) :
    (∀ i, (tick obstacles s refused).2.safety.safeTorque i =
        (tick obstacles s zeroed).2.safety.safeTorque i) ↔
      ∀ i, 870 * (|q i| - 2.89) ≤ 1e-4 := by
  have arm' := arm.tickCommand s.watchdog zeroed
  have applied := tick_applied obstacles arm plant (u := 0) zero
  rw [tick_fallback unordered, applied]
  refine forall_congr' fun i => ?_
  have quiet : filteredTorque (tickCommand s.limits s.watchdog zeroed).limits q
      s.state.endEffectorPos obstacles 0 i = 0 ↔ _ := filteredTorque_zero_iff arm'.standard
  rw [← daemon_limitViolated_zero_iff arm', ← quiet]
  constructor
  · exact fun same => (Ieee.fin.inj same).symm
  · exact fun same => congrArg Ieee.fin same.symm

section Past

/-- The daemon with joint 5 at 2.90 rad, 0.01 rad past its limit. -/
noncomputable def pastDaemon : DaemonState ℝ :=
  { daemonStart 0 with
    state := ⟨fun i => .fin (clashPosition i), fun _ => .fin 0, daemonState.endEffectorPos⟩ }

theorem pastDaemon_plant : PlantAt pastDaemon.state clashPosition (fun _ => 0) := ⟨rfl, rfl⟩

/-- A frame with NaN torques. -/
def nanFrame : TickInput ℝ := ⟨0, 1, 2, fun _ => .nan, 1, .fin 0.08, 2⟩

/-- The same frame with the E-stop flag. -/
def estopFrame : TickInput ℝ := ⟨0, 1, 2, fun _ => .nan, 2, .fin 0.08, 2⟩

theorem nanFrame_unordered : ¬∃ u : Fin DOF → ℝ,
    (tickCommand pastDaemon.limits pastDaemon.watchdog nanFrame).nominalTorque =
      fun i => .fin (u i) := by
  have torques : (tickCommand pastDaemon.limits pastDaemon.watchdog nanFrame).nominalTorque =
      fun _ => .nan := by
    simp [tickCommand, nanFrame, pastDaemon, daemonStart, Watchdog.start, Watchdog.evaluate,
      ingestCommand]
  rintro ⟨u, command⟩
  cases congrFun (torques.symm.trans command) 0

theorem estopFrame_zero :
    (tickCommand pastDaemon.limits pastDaemon.watchdog estopFrame).nominalTorque = zeroTorque :=
  tickCommand_override (Or.inr (by decide))

theorem failSafe_paths_iff_past :
    (∀ i, (tick daemonObstacles pastDaemon nanFrame).2.safety.safeTorque i =
        (tick daemonObstacles pastDaemon estopFrame).2.safety.safeTorque i) ↔
      ∀ i, 870 * (|clashPosition i| - 2.89) ≤ 1e-4 :=
  failSafe_paths_iff daemonObstacles DaemonArm.start pastDaemon_plant nanFrame estopFrame
    nanFrame_unordered estopFrame_zero

/-- Past a limit the E-stop pulls joint 5 back and the fallback lets it go. -/
theorem failSafe_paths_differ :
    (tick daemonObstacles pastDaemon nanFrame).2.safety.safeTorque 5 = .fin 0 ∧
      (tick daemonObstacles pastDaemon estopFrame).2.safety.safeTorque 5 ≠ .fin 0 := by
  have arm : DaemonArm pastDaemon.limits := DaemonArm.start
  have arm' := arm.tickCommand pastDaemon.watchdog estopFrame
  have applied := tick_applied daemonObstacles arm pastDaemon_plant (u := 0) estopFrame_zero
  refine ⟨by rw [tick_fallback nanFrame_unordered]; rfl, fun none => ?_⟩
  rw [applied] at none
  have kept := (filteredTorque_zero_iff arm'.standard).mp (Ieee.fin.inj none)
  have position : clashPosition 5 = 2.90 := Pi.single_eq_same 5 2.90
  have inside := (daemon_limitViolated_zero_iff arm').mp kept
  rw [position, abs_of_pos (by norm_num)] at inside
  norm_num at inside

end Past

end NeuroKinetic
