import NeuroKinetic.CommandIngest
import NeuroKinetic.DaemonTick
import NeuroKinetic.RealArithmetic

open RidgeProjection

namespace NeuroKinetic

variable {K : Type} [Field K] [LinearOrder K] [IsStrictOrderedRing K]

theorem obstacleTorqueBound_pos [SquareRoot K] {limits : KinematicLimits K}
    (ht : limits.torqueMax 5 = 87) (eePos : Fin 3 → Ieee K) (obs : Obstacle K) :
    0.05 ≤ obstacleTorqueBound limits eePos obs := by
  unfold obstacleTorqueBound
  split
  next => exact le_rfl
  next => rw [ht]; norm_num

theorem not_obstacleViolated_zero [SquareRoot K] {limits : KinematicLimits K}
    (ht : limits.torqueMax 5 = 87) (eePos : Fin 3 → Ieee K) (obstacles : List (Obstacle K)) :
    ¬ObstacleViolated limits eePos obstacles 0 := by
  intro violated
  obtain ⟨obs, rest, rfl⟩ := List.exists_cons_of_ne_nil violated.1
  have bound : 0.05 ≤ (0 : K) := (obstacleTorqueBound_pos ht eePos obs).trans violated.bound_le
  norm_num at bound

/-- What the filter makes of a zero command on one joint: nothing inside the
limits, and only a restoring torque outside them. -/
structure Restoring (limits : KinematicLimits K) (q : Fin DOF → K) (i : Fin DOF) (t : K) :
    Prop where
  inside : limits.qMin i ≤ q i → q i ≤ limits.qMax i → t = 0
  above : limits.qMax i < q i → t ≤ 0
  below : q i < limits.qMin i → 0 ≤ t

theorem filteredTorque_zero [SquareRoot K] {limits : KinematicLimits K}
    (standard : StandardLimits limits) (q : Fin DOF → K) (eePos : Fin 3 → Ieee K)
    (obstacles : List (Obstacle K)) (i : Fin DOF) :
    Restoring limits q i (filteredTorque limits q eePos obstacles 0 i) := by
  have ht := standard.torque i
  have noObstacle : ¬obstacleActs limits q eePos obstacles 0 i :=
    fun h => not_obstacleViolated_zero (standard.torque 5) eePos obstacles h.2.1
  have tolerance : (0 : K) < 1e-4 := by norm_num
  have outcome := filteredTorque_outcome (u := 0) (standard.order q i) eePos obstacles
  generalize filteredTorque limits q eePos obstacles 0 i = t at outcome
  cases outcome with
  | accepted _ _ _ _ value =>
    have zero : t = 0 := by
      rcases value with value | value
      · exact value
      · rw [value, Pi.zero_apply, ht]
        exact stdClamp_of_mem (by norm_num) (by norm_num)
    exact ⟨fun _ _ => zero, fun _ => zero.le, fun _ => zero.ge⟩
  | ceiling upper =>
    have command : maxAllowedTorque limits q i < 0 := lt_of_add_lt_of_nonneg_left upper tolerance.le
    have outside : limits.qMax i < q i := by
      by_contra h
      exact absurd command (not_lt.mpr (maxAllowedTorque_nonneg ht (not_lt.mp h)))
    have mean : ridgeMean 1 (0 : K) (maxAllowedTorque limits q i) ≤ 0 :=
      ridgeMean_one_le_command command.le
    refine ⟨fun _ h => absurd outside (not_lt.mpr h), fun _ => ?_, fun h => ?_⟩
    · exact saturated_le ht mean (by norm_num)
    · have := standard.width i
      norm_num at this
      linarith
  | floor lower =>
    have command : 0 < minAllowedTorque limits q i := lt_of_lt_of_le lower (sub_le_self _ tolerance.le)
    have outside : q i < limits.qMin i := by
      by_contra h
      exact absurd command (not_lt.mpr (minAllowedTorque_nonpos ht (not_lt.mp h)))
    have mean : 0 ≤ ridgeMean 1 (0 : K) (minAllowedTorque limits q i) :=
      command_le_ridgeMean_one command.le
    refine ⟨fun h _ => absurd outside (not_lt.mpr h), fun h => ?_, fun _ => ?_⟩
    · have := standard.width i
      norm_num at this
      linarith
    · exact le_saturated ht mean (by norm_num)
  | obstacle _ _ acts => exact absurd acts noObstacle
  | ceilingObstacle _ acts => exact absurd acts noObstacle
  | floorObstacle _ acts => exact absurd acts noObstacle

def TickInput.withTorques (input : TickInput K) (torques : Fin DOF → Ieee K) : TickInput K :=
  { input with command := { input.command with nominalTorques := torques } }

variable [SquareRoot K] [ExactSolver K]

/-- Watchdog trip and E-stop dominate the command: the applied torque does not
depend on it and is at most restoring. -/
theorem override_dominates_command {obstacles : List (Obstacle K)} {s : DaemonState K}
    {q qDot : Fin DOF → K} (arm : DaemonArm s.limits) (plant : PlantAt s.state q qDot)
    (input : TickInput K) (torques : Fin DOF → Ieee K)
    (override : (s.watchdog.evaluate input.heartbeatPython input.tickStart).tripped = true ∨
      (input.command.Accepted ∧ input.command.commandFlags &&& 2 ≠ 0)) :
    ∃ t : Fin DOF → K,
      (tick obstacles s input).2.safety.safeTorque = (fun i => .fin (t i)) ∧
      (tick obstacles s (input.withTorques torques)).2.safety.safeTorque = (fun i => .fin (t i)) ∧
      ∀ i, Restoring s.limits q i (t i) := by
  have same := ingestCommand_torques input.command torques
  have flagged : (s.watchdog.evaluate input.heartbeatPython input.tickStart).tripped = true ∨
      (ingestCommand input.command).flags &&& 2 ≠ 0 := by
    rcases override with tripped | ⟨accepted, flag⟩
    · exact Or.inl tripped
    · exact Or.inr (by rwa [ingestCommand_accepted accepted])
  have zero : (tickCommand s.limits s.watchdog input).nominalTorque = zeroTorque :=
    tickCommand_override flagged
  have zero' : (tickCommand s.limits s.watchdog (input.withTorques torques)).nominalTorque =
      zeroTorque := tickCommand_override (by rwa [TickInput.withTorques, same.1])
  have limits : (tickCommand s.limits s.watchdog (input.withTorques torques)).limits =
      (tickCommand s.limits s.watchdog input).limits := by
    simp only [tickCommand, TickInput.withTorques, same.2]
  refine ⟨filteredTorque (tickCommand s.limits s.watchdog input).limits q
    s.state.endEffectorPos obstacles 0, tick_applied obstacles arm plant zero, ?_, fun i => ?_⟩
  · rw [← limits]
    exact tick_applied obstacles arm plant zero'
  · have standard := (arm.tickCommand s.watchdog input).standard
    have restoring := filteredTorque_zero standard q s.state.endEffectorPos obstacles i
    exact ⟨restoring.inside, restoring.above, restoring.below⟩

/-- An E-stop frame full of NaN torques against one that commands 5 Nm. -/
theorem override_dominates_estop :
    ∃ t : Fin DOF → ℝ,
      (tick daemonObstacles (daemonStart 0) ⟨0, 0, 2, fun _ => .nan, 2, .fin 0.08, 2⟩).2.safety.safeTorque =
        (fun i => .fin (t i)) ∧
      (tick daemonObstacles (daemonStart 0) (TickInput.withTorques
        ⟨0, 0, 2, fun _ => .nan, 2, .fin 0.08, 2⟩ fun _ => .fin 5)).2.safety.safeTorque =
        (fun i => .fin (t i)) ∧
      ∀ i, Restoring daemonLimits ![0, 0.2, 0, -1.2, 0, 2.80, 0] i (t i) :=
  override_dominates_command DaemonArm.start ⟨rfl, rfl⟩ _ _
    (Or.inr ⟨⟨by decide, by decide, rfl⟩, by decide⟩)

end NeuroKinetic
