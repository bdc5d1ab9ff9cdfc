import NeuroKinetic.RealArithmetic
import NeuroKinetic.ShmClient
import Mathlib.Tactic.NormNum
import Mathlib.Tactic.Linarith

open RidgeProjection

namespace NeuroKinetic

variable {K : Type} [Field K]

/-- A slot whose NaN margin the next tick loads; nothing else reaches the clamp
unordered. -/
def CommandRead.UnorderedMargin (r : CommandRead K) : Prop :=
  r.cmdSeq1 % 2 = 0 ∧ r.cmdSeq1 ≠ 0 ∧ r.obstacleSafetyMargin = .nan

theorem ingestCommand_margin_nan {r : CommandRead K} :
    (ingestCommand r).dynamicMargin = .nan ↔ r.UnorderedMargin := by
  by_cases read : r.cmdSeq1 % 2 = 0 ∧ r.cmdSeq1 ≠ 0
  · simp only [ingestCommand, if_pos read]
    exact ⟨fun unordered => ⟨read.1, read.2, unordered⟩, fun h => h.2.2⟩
  · simp only [ingestCommand, if_neg read, defaultMargin_ne_nan, false_iff]
    exact fun h => read ⟨h.1, h.2.1⟩

variable [LinearOrder K]

omit [Field K] in
/-- The clamp of a NaN is the NaN: both of its comparisons are false. -/
theorem stdClamp_nan (lo hi : Ieee K) : stdClamp .nan lo hi = .nan := by
  rw [stdClamp, if_neg (Ieee.not_nan_lt lo), if_neg (Ieee.not_lt_nan hi)]

/-- An obstacle distance within the range of the reload. -/
def MarginInstalled (limits : KinematicLimits K) : Prop :=
  ∃ margin, limits.minObstacleDistance = .fin margin ∧ 0.02 ≤ margin ∧ margin ≤ 0.30

theorem stdClamp_margin [IsStrictOrderedRing K] {m : Ieee K} (ordered : m ≠ .nan) :
    ∃ margin, stdClamp m (.fin 0.02) (.fin 0.30) = .fin margin ∧ 0.02 ≤ margin ∧ margin ≤ 0.30 := by
  have range : (0.02 : K) ≤ 0.30 := by norm_num
  cases m with
  | fin x =>
    refine ⟨stdClamp x 0.02 0.30, ?_, le_stdClamp range, stdClamp_le range⟩
    simp only [stdClamp, Ieee.fin_lt_fin]
    split
    next => rfl
    next => split <;> rfl
  | posInf => exact ⟨0.30, rfl, range, le_rfl⟩
  | negInf => exact ⟨0.02, rfl, le_rfl, range⟩
  | nan => exact absurd rfl ordered

theorem tickCommand_marginInstalled [IsStrictOrderedRing K] (limits : KinematicLimits K)
    (w : Watchdog) (input : TickInput K) :
    MarginInstalled (tickCommand limits w input).limits ↔ ¬input.command.UnorderedMargin := by
  rw [← ingestCommand_margin_nan]
  constructor
  · rintro ⟨margin, installed, _⟩ unordered
    simp only [tickCommand, unordered, stdClamp_nan, reduceCtorEq] at installed
  · exact stdClamp_margin

variable [SquareRoot K]

/-- Whenever the end effector is inside the smallest bubble the reload can
install, the obstacle row restricts joint 5. -/
def ObstacleEnforced (limits : KinematicLimits K) (eePos : Fin 3 → Ieee K)
    (obstacles : List (Obstacle K)) : Prop :=
  ∀ obs rest, obstacles = obs :: rest →
    norm3 (fun i => eePos i - obs.position i) < obs.radius + .fin 0.02 + .fin 0.05 →
    obstacleRow limits eePos obstacles = ⟨Pi.single 5 (-1), -0.05⟩

theorem daemon_obstacle_gap [IsStrictOrderedRing K] :
    norm3 (fun i => (daemonState.endEffectorPos i : Ieee K) -
        (![.fin 0.50, .fin 0.10, .fin 0.30] : Fin 3 → Ieee K) i) =
      .fin (SquareRoot.sqrt 0.0029) := by
  have square : (0.45 - 0.50 : K) * (0.45 - 0.50) + (0.10 - 0.10) * (0.10 - 0.10) +
      (0.32 - 0.30) * (0.32 - 0.30) = 0.0029 := by norm_num
  simp only [norm3, daemonState, Matrix.cons_val_zero, Matrix.cons_val_one, Matrix.cons_val,
    Ieee.fin_sub_fin, Ieee.fin_mul_fin, Ieee.fin_add_fin, square]
  exact Ieee.sqrt_fin (by norm_num)

/-- The daemon's end effector is 54 mm from its obstacle. -/
theorem daemon_obstacle_near [IsStrictOrderedRing K] [LawfulSquareRoot K] :
    SquareRoot.sqrt (0.0029 : K) < 0.12 :=
  LawfulSquareRoot.sqrt_lt (by norm_num) (by norm_num) (by norm_num)

omit [SquareRoot K] in
theorem obstacleBarrier_lt [IsStrictOrderedRing K] {dist radius : Ieee K} {margin : K}
    (least : 0.02 ≤ margin) (close : dist < radius + .fin 0.02 + .fin 0.05) :
    dist - (radius + .fin margin) < .fin 0.05 := by
  cases radius with
  | fin r =>
    cases dist with
    | fin d =>
      simp only [Ieee.fin_add_fin, Ieee.fin_sub_fin, Ieee.fin_lt_fin] at close ⊢
      linarith
    | negInf => rfl
    | posInf => cases close
    | nan => cases close
  | posInf =>
    cases dist with
    | fin d => rfl
    | negInf => rfl
    | posInf => cases close
    | nan => cases close
  | negInf => cases dist <;> cases close
  | nan => cases dist <;> cases close

theorem MarginInstalled.enforced [IsStrictOrderedRing K] {limits : KinematicLimits K}
    (h : MarginInstalled limits) (eePos : Fin 3 → Ieee K) (obstacles : List (Obstacle K)) :
    ObstacleEnforced limits eePos obstacles := by
  obtain ⟨margin, installed, least, _⟩ := h
  rintro obs rest rfl close
  have barrier : computeObstacleBarrier limits eePos obs < .fin 0.05 := by
    simp only [computeObstacleBarrier, installed]
    exact obstacleBarrier_lt least close
  simp only [obstacleRow, obstacleTorqueBound, if_pos barrier]

/-- A NaN obstacle distance switches the obstacle row off, wherever the arm is. -/
theorem obstacleTorqueBound_nan {limits : KinematicLimits K}
    (installed : limits.minObstacleDistance = .nan) (eePos : Fin 3 → Ieee K) (obs : Obstacle K) :
    obstacleTorqueBound limits eePos obs = limits.torqueMax 5 := by
  have barrier : computeObstacleBarrier limits eePos obs = .nan := by
    rw [computeObstacleBarrier, installed, Ieee.add_nan, Ieee.sub_nan]
  rw [obstacleTorqueBound, barrier, if_neg (Ieee.not_nan_lt _)]

theorem not_obstacleEnforced_nan [IsStrictOrderedRing K] [LawfulSquareRoot K]
    {limits : KinematicLimits K} (installed : limits.minObstacleDistance = .nan)
    (ht : limits.torqueMax 5 = 87) :
    ¬ObstacleEnforced limits daemonState.endEffectorPos daemonObstacles := by
  have close : norm3 (fun i => (daemonState.endEffectorPos i : Ieee K) -
      (![.fin 0.50, .fin 0.10, .fin 0.30] : Fin 3 → Ieee K) i) <
        .fin 0.05 + .fin 0.02 + .fin 0.05 := by
    have near := daemon_obstacle_near (K := K)
    rw [daemon_obstacle_gap, Ieee.fin_add_fin, Ieee.fin_add_fin, Ieee.fin_lt_fin]
    norm_num at near ⊢
    exact near
  intro enforced
  have row := congrArg ConstraintRow.bound (enforced _ [] rfl close)
  simp only [daemonObstacles, obstacleRow, obstacleTorqueBound_nan installed, ht] at row
  norm_num at row

/-- The obstacle barrier of a tick stays on if and only if the margin that the
tick loads is not a NaN. -/
theorem margin_reload_iff [IsStrictOrderedRing K] [ExactSolver K] (s : DaemonState K)
    (input : TickInput K) (obstacles : List (Obstacle K)) :
    MarginInstalled (tick obstacles s input).1.limits ∧
        ObstacleEnforced (tick obstacles s input).1.limits s.state.endEffectorPos obstacles ↔
      ¬input.command.UnorderedMargin := by
  have installed := tickCommand_marginInstalled s.limits s.watchdog input
  constructor
  · exact fun h => installed.mp h.1
  · intro ordered
    have reloaded := installed.mpr ordered
    exact ⟨reloaded, reloaded.enforced _ _⟩

section Unordered

/-- A tuning of the margin to NaN, dispatched through the client. -/
noncomputable def unorderedTuning : NeuroKineticClient ℝ :=
  (dispatchVlaTorque some (List.replicate DOF (.fin 0)) .nan (.fin 15) ⟨0, ⟨0, initialCommand⟩⟩).1

/-- The tick that follows it. -/
noncomputable def unorderedInput : TickInput ℝ :=
  ⟨0, unorderedTuning.buf.heartbeatPython, unorderedTuning.buf.command.read⟩

theorem margin_reload_iff_unordered :
    MarginInstalled (tick daemonObstacles (daemonStart 0) unorderedInput).1.limits ∧
        ObstacleEnforced (tick daemonObstacles (daemonStart 0) unorderedInput).1.limits
          daemonState.endEffectorPos daemonObstacles ↔
      ¬unorderedInput.command.UnorderedMargin :=
  margin_reload_iff (daemonStart 0) unorderedInput daemonObstacles

/-- A client's NaN margin is accepted, installed and lifts the restriction on joint 5. -/
theorem unordered_margin_installed :
    (tick daemonObstacles (daemonStart 0) unorderedInput).1.limits.minObstacleDistance = .nan ∧
      ¬(MarginInstalled (tick daemonObstacles (daemonStart 0) unorderedInput).1.limits ∧
        ObstacleEnforced (tick daemonObstacles (daemonStart 0) unorderedInput).1.limits
          daemonState.endEffectorPos daemonObstacles) ∧
      ¬ObstacleEnforced (tick daemonObstacles (daemonStart 0) unorderedInput).1.limits
        daemonState.endEffectorPos daemonObstacles := by
  have unordered : unorderedInput.command.UnorderedMargin :=
    ⟨by decide +kernel, by decide +kernel, rfl⟩
  have nan : (tick daemonObstacles (daemonStart 0) unorderedInput).1.limits.minObstacleDistance =
      .nan := by
    have loaded := ingestCommand_margin_nan.mpr unordered
    simp only [tick, tickCommand, loaded, stdClamp_nan]
  have lifted := not_obstacleEnforced_nan nan rfl
  exact ⟨nan, fun h => lifted h.2, lifted⟩

end Unordered

end NeuroKinetic
