import NeuroKinetic.Daemon
import NeuroKinetic.JointOutcome

open RidgeProjection

namespace NeuroKinetic

variable {K : Type} [Field K]

/-- The daemon's own limits; only the obstacle margin is ever reloaded. -/
def DaemonArm (limits : KinematicLimits K) : Prop :=
  ∃ margin, limits = { daemonLimits with minObstacleDistance := margin }

structure PlantAt (state : ManipulatorState K) (q qDot : Fin DOF → K) : Prop where
  position : state.q = fun i => .fin (q i)
  velocity : state.qDot = fun i => .fin (qDot i)

theorem DaemonArm.start : DaemonArm (daemonLimits : KinematicLimits K) := ⟨.fin 0.08, rfl⟩

theorem DaemonArm.qMin {limits : KinematicLimits K} (h : DaemonArm limits) (i : Fin DOF) :
    limits.qMin i = -2.89 := by
  obtain ⟨_, rfl⟩ := h
  rfl

theorem DaemonArm.qMax {limits : KinematicLimits K} (h : DaemonArm limits) (i : Fin DOF) :
    limits.qMax i = 2.89 := by
  obtain ⟨_, rfl⟩ := h
  rfl

theorem DaemonArm.torqueMax {limits : KinematicLimits K} (h : DaemonArm limits) (i : Fin DOF) :
    limits.torqueMax i = 87 := by
  obtain ⟨_, rfl⟩ := h
  rfl

variable [LinearOrder K]

theorem DaemonArm.tickCommand {limits : KinematicLimits K} (h : DaemonArm limits) (w : Watchdog)
    (input : TickInput K) : DaemonArm (tickCommand limits w input).limits := by
  obtain ⟨_, rfl⟩ := h
  exact ⟨_, rfl⟩

theorem DaemonArm.standard [IsStrictOrderedRing K] {limits : KinematicLimits K}
    (h : DaemonArm limits) : StandardLimits limits := by
  refine ⟨h.torqueMax, fun i => ?_⟩
  rw [h.qMin, h.qMax]
  norm_num

theorem StandardLimits.order [IsStrictOrderedRing K] {limits : KinematicLimits K}
    (h : StandardLimits limits) (q : Fin DOF → K) (i : Fin DOF) :
    minAllowedTorque limits q i ≤ maxAllowedTorque limits q i :=
  minAllowedTorque_le_maxAllowedTorque (h.torque i) (h.width i) q

/-- One joint's integration step: damped velocity first, then position. -/
def jointStep (q qDot torque : K) : K × K :=
  let qDot := (qDot + torque / 10 * 0.002) * 0.98
  (q + qDot * 0.002, qDot)

theorem integrate_plantAt [IsStrictOrderedRing K] {state : ManipulatorState K}
    {q qDot : Fin DOF → K} (h : PlantAt state q qDot) (torque : Fin DOF → K) :
    PlantAt (integrate state fun i => .fin (torque i))
      (fun i => (jointStep (q i) (qDot i) (torque i)).1)
      (fun i => (jointStep (q i) (qDot i) (torque i)).2) := by
  have ten : (10 : K) ≠ 0 := by norm_num
  constructor <;> funext i <;>
    simp only [integrate, jointStep, h.position, h.velocity, Ieee.fin_div_fin _ ten,
      Ieee.fin_mul_fin, Ieee.fin_add_fin]

variable [SquareRoot K] [ExactSolver K]

variable [IsStrictOrderedRing K]

/-- A tick over finite plant data with a finite command applies `filteredTorque`
of the reloaded limits. -/
theorem tick_applied (obstacles : List (Obstacle K)) {s : DaemonState K} {input : TickInput K}
    {q qDot u : Fin DOF → K} (arm : DaemonArm s.limits) (plant : PlantAt s.state q qDot)
    (command : (tickCommand s.limits s.watchdog input).nominalTorque = fun i => .fin (u i)) :
    (tick obstacles s input).2.safety.safeTorque = fun i =>
      .fin (filteredTorque (tickCommand s.limits s.watchdog input).limits q
        s.state.endEffectorPos obstacles u i) := by
  have standard := (arm.tickCommand s.watchdog input).standard
  obtain ⟨intervened, answer⟩ := filterTorques_eq (standard.order q) qDot u
    s.state.endEffectorPos obstacles
  have state : s.state = ⟨fun i => .fin (q i), fun i => .fin (qDot i), s.state.endEffectorPos⟩ := by
    rw [← plant.position, ← plant.velocity]
  simp only [tick, command]
  rw [state, answer]

theorem tick_plantAt {obstacles : List (Obstacle K)} {s : DaemonState K} {input : TickInput K}
    {q qDot torque : Fin DOF → K} (plant : PlantAt s.state q qDot)
    (applied : (tick obstacles s input).2.safety.safeTorque = fun i => .fin (torque i)) :
    PlantAt (tick obstacles s input).1.state
      (fun i => (jointStep (q i) (qDot i) (torque i)).1)
      (fun i => (jointStep (q i) (qDot i) (torque i)).2) := by
  have next : (tick obstacles s input).1.state =
      integrate s.state (tick obstacles s input).2.safety.safeTorque := rfl
  rw [next, applied]
  exact integrate_plantAt plant torque

end NeuroKinetic
