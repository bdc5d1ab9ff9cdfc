import NeuroKinetic.BoxProjection
import NeuroKinetic.Library.RunningMinimum

open RidgeProjection

namespace NeuroKinetic

variable {K : Type} [Field K] [LinearOrder K]

section Finite

/-- What the sanity check of the filter looks at. -/
def JointDataFinite (state : ManipulatorState K) (nominal : Fin DOF → Ieee K) : Prop :=
  ∃ q qDot u : Fin DOF → K, state.q = (fun i => .fin (q i)) ∧
    state.qDot = (fun i => .fin (qDot i)) ∧ nominal = fun i => .fin (u i)

variable [SquareRoot K] [ExactSolver K]

/-- The sanity check is the filter's only source of errors. -/
theorem filterTorques_error_iff (limits : KinematicLimits K) (state : ManipulatorState K)
    (nominal : Fin DOF → Ieee K) (obstacles : List (Obstacle K)) :
    (∃ e, filterTorques limits state nominal obstacles = .error e) ↔
      ¬JointDataFinite state nominal := by
  constructor
  · rintro ⟨e, failed⟩ ⟨q, qDot, u, position, velocity, command⟩
    have answer := filterTorques_solved limits q qDot u state.endEffectorPos obstacles
    rw [← position, ← velocity, ← command] at answer
    cases failed.symm.trans answer
  · intro unordered
    refine ⟨.invalidState, filterTorques_invalid limits obstacles ?_⟩
    rcases Ieee.allFinite?_cases state.q with ⟨q, hq⟩ | position
    · rcases Ieee.allFinite?_cases state.qDot with ⟨qDot, hqDot⟩ | velocity
      · rcases Ieee.allFinite?_cases nominal with ⟨u, hu⟩ | command
        · exact absurd ⟨q, qDot, u, hq, hqDot, hu⟩ unordered
        · exact Or.inr (Or.inr command)
      · exact Or.inr (Or.inl velocity)
    · exact Or.inl position

end Finite

section Geometry

variable [SquareRoot K]

/-- A NaN in what the barrier of one obstacle is computed from. -/
def UnorderedFor (limits : KinematicLimits K) (eePos : Fin 3 → Ieee K) (obs : Obstacle K) : Prop :=
  (∃ i, eePos i = .nan) ∨ (∃ i, obs.position i = .nan) ∨ obs.radius = .nan ∨
    limits.minObstacleDistance = .nan

theorem norm3_nan {v : Fin 3 → Ieee K} {i : Fin 3} (h : v i = .nan) : norm3 v = .nan := by
  fin_cases i
  · simp only [Fin.zero_eta, Fin.isValue] at h
    simp only [norm3, h, Ieee.nan_mul, Ieee.nan_add, Ieee.sqrt_nan]
  · simp only [Fin.mk_one, Fin.isValue] at h
    simp only [norm3, h, Ieee.nan_mul, Ieee.add_nan, Ieee.nan_add, Ieee.sqrt_nan]
  · simp only [Fin.reduceFinMk, Fin.isValue] at h
    simp only [norm3, h, Ieee.nan_mul, Ieee.add_nan, Ieee.sqrt_nan]

theorem computeObstacleBarrier_nan {limits : KinematicLimits K} {eePos : Fin 3 → Ieee K}
    {obs : Obstacle K} (h : UnorderedFor limits eePos obs) :
    computeObstacleBarrier limits eePos obs = .nan := by
  rcases h with ⟨i, h⟩ | ⟨i, h⟩ | h | h
  · rw [computeObstacleBarrier, norm3_nan (i := i) (by rw [h, Ieee.nan_sub]), Ieee.nan_sub]
  · rw [computeObstacleBarrier, norm3_nan (i := i) (by rw [h, Ieee.sub_nan]), Ieee.nan_sub]
  · rw [computeObstacleBarrier, h, Ieee.nan_add, Ieee.sub_nan]
  · rw [computeObstacleBarrier, h, Ieee.add_nan, Ieee.sub_nan]

/-- Both comparisons with such a barrier are false, and both false branches permit. -/
theorem UnorderedFor.permits {limits : KinematicLimits K} {eePos : Fin 3 → Ieee K}
    {obs : Obstacle K} (h : UnorderedFor limits eePos obs) :
    obstacleTorqueBound limits eePos obs = limits.torqueMax 5 := by
  rw [obstacleTorqueBound, computeObstacleBarrier_nan h, if_neg (Ieee.not_nan_lt _)]

theorem minMargin_nan {limits : KinematicLimits K} {eePos : Fin 3 → Ieee K}
    {obstacles : List (Obstacle K)} (h : ∀ obs ∈ obstacles, UnorderedFor limits eePos obs) :
    minMargin limits eePos obstacles = .fin 100 :=
  Ieee.foldl_lesser_nan (computeObstacleBarrier limits eePos) _
    fun obs member => computeObstacleBarrier_nan (h obs member)

end Geometry

section Infeasible

variable [IsStrictOrderedRing K] [SquareRoot K]

/-- No joint's floor is above its ceiling, and on joint 5 not above the obstacle
bound, by more than two tolerances. -/
def RowsCompatible (limits : KinematicLimits K) (q : Fin DOF → K) (eePos : Fin 3 → Ieee K)
    (obstacles : List (Obstacle K)) : Prop :=
  (∀ i, minAllowedTorque limits q i ≤ maxAllowedTorque limits q i + 2e-4) ∧
    (obstacles ≠ [] → minAllowedTorque limits q 5 ≤ obstacleBound limits eePos obstacles + 2e-4)

theorem rowsWithin_satisfiable_iff {limits : KinematicLimits K} {q : Fin DOF → K}
    {eePos : Fin 3 → Ieee K} {obstacles : List (Obstacle K)} :
    (∃ w, RowsWithin limits q eePos obstacles 1e-4 w) ↔
      RowsCompatible limits q eePos obstacles := by
  simp only [rowsWithin_iff (show (0 : K) ≤ 1e-4 by norm_num)]
  constructor
  · rintro ⟨w, within⟩
    refine ⟨fun i => ?_, fun hne => ?_⟩
    · have floor := (within i).floor
      have ceiling := (within i).ceiling
      norm_num at floor ceiling ⊢
      linarith
    · have floor := (within 5).floor
      have bound := (within 5).obstacle rfl hne
      norm_num at floor bound ⊢
      linarith
  · rintro ⟨joint, obstacle⟩
    refine ⟨fun i => minAllowedTorque limits q i - 1e-4, fun i => ⟨?_, le_rfl, ?_⟩⟩
    · have order := joint i
      norm_num at order ⊢
      linarith
    · rintro rfl hne
      have order := obstacle hne
      norm_num at order ⊢
      linarith

end Infeasible

/-- Which inputs with unordered geometry the filter refuses: those that its sanity
check on the joint data refuses. Where the NaN reaches the first obstacle, the row
of an answer is the permissive one; where it reaches all, the margin is untouched. -/
theorem filterTorques_unordered_iff {K : Type} [Field K] [LinearOrder K] [SquareRoot K]
    [ExactSolver K] (limits : KinematicLimits K) (state : ManipulatorState K)
    (nominal : Fin DOF → Ieee K) {obstacles : List (Obstacle K)}
    (unordered : ∃ obs ∈ obstacles, UnorderedFor limits state.endEffectorPos obs) :
    ((∃ e, filterTorques limits state nominal obstacles = .error e) ↔
        ¬JointDataFinite state nominal) ∧
      (∀ obs rest, obstacles = obs :: rest → UnorderedFor limits state.endEffectorPos obs →
        obstacleRow limits state.endEffectorPos obstacles =
          ⟨Pi.single 5 (-1), -limits.torqueMax 5⟩) ∧
      ((∀ obs ∈ obstacles, UnorderedFor limits state.endEffectorPos obs) →
        minMargin limits state.endEffectorPos obstacles = .fin 100) := by
  refine ⟨filterTorques_error_iff limits state nominal obstacles, ?_, minMargin_nan⟩
  rintro obs rest rfl first
  rw [obstacleRow, first.permits]

/-- Which systems of rows the filter is right to answer. -/
theorem filterTorques_infeasible_iff {K : Type} [Field K] [LinearOrder K] [IsStrictOrderedRing K]
    [SquareRoot K] [ExactSolver K] (limits : KinematicLimits K) (q qDot u : Fin DOF → K)
    (eePos : Fin 3 → Ieee K) (obstacles : List (Obstacle K)) :
    ((¬∃ w, RowsWithin limits q eePos obstacles 1e-4 w) →
        filterTorques limits ⟨fun i => .fin (q i), fun i => .fin (qDot i), eePos⟩
          (fun i => .fin (u i)) obstacles = .error .qpFailure) ↔
      RowsCompatible limits q eePos obstacles := by
  rw [← rowsWithin_satisfiable_iff, filterTorques_solved]
  constructor
  · intro reported
    by_contra infeasible
    cases reported infeasible
  · exact fun feasible infeasible => absurd feasible infeasible

section Daemon

/-- Joint 5 is 0.05 rad past its lower limit. -/
noncomputable def pastPosition : Fin DOF → ℝ := Pi.single 5 (-2.94)

theorem past_floor : minAllowedTorque daemonLimits pastPosition 5 = 43.5 := by
  have ramp : stdClamp (-((-2.94 : ℝ) - -2.89) * 10 * 87) (-87) 87 = 43.5 := by
    rw [stdClamp_of_mem] <;> norm_num
  simp only [minAllowedTorque, daemonLimits, pastPosition, Pi.single_eq_same, ramp]
  norm_num

/-- There its floor is above the torque that the obstacle allows. -/
theorem past_infeasible : ¬∃ w, RowsWithin daemonLimits pastPosition daemonState.endEffectorPos
    daemonObstacles 1e-4 w := by
  rw [rowsWithin_satisfiable_iff]
  intro compatible
  have order := compatible.2 (List.cons_ne_nil _ _)
  rw [past_floor, clash_obstacleBound] at order
  norm_num at order

theorem filterTorques_infeasible_iff_past :
    ((¬∃ w, RowsWithin daemonLimits pastPosition daemonState.endEffectorPos daemonObstacles
          1e-4 w) →
        filterTorques daemonLimits
          ⟨fun i => .fin (pastPosition i), fun _ => .fin 0, daemonState.endEffectorPos⟩
          (fun i => .fin (clashCommand i)) daemonObstacles = .error .qpFailure) ↔
      RowsCompatible daemonLimits pastPosition daemonState.endEffectorPos daemonObstacles :=
  filterTorques_infeasible_iff daemonLimits pastPosition (fun _ => 0) clashCommand
    daemonState.endEffectorPos daemonObstacles

/-- The filter answers although no torque satisfies its rows. -/
theorem filterTorques_past :
    (∀ i, (daemonLimits : KinematicLimits ℝ).qMin i < (daemonLimits : KinematicLimits ℝ).qMax i ∧
      0 < (daemonLimits : KinematicLimits ℝ).torqueMax i) ∧
    (¬∃ w, RowsWithin daemonLimits pastPosition daemonState.endEffectorPos daemonObstacles 1e-4 w) ∧
    ∃ output, filterTorques daemonLimits
      ⟨fun i => .fin (pastPosition i), fun _ => .fin 0, daemonState.endEffectorPos⟩
      (fun i => .fin (clashCommand i)) daemonObstacles = .ok output := by
  refine ⟨fun i => ?_, past_infeasible, _, filterTorques_solved daemonLimits pastPosition
    (fun _ => 0) clashCommand daemonState.endEffectorPos daemonObstacles⟩
  simp only [daemonLimits]
  norm_num

/-- A sensor fault: the end effector's position is lost. -/
def lostEndEffector : Fin 3 → Ieee ℝ := fun _ => .nan

theorem lostEndEffector_unordered (limits : KinematicLimits ℝ) (obs : Obstacle ℝ) :
    UnorderedFor limits lostEndEffector obs := Or.inl ⟨0, rfl⟩

theorem filterTorques_unordered_lost :
    ((∃ e, filterTorques daemonLimits
          ⟨fun i => .fin (spikePosition i), fun _ => .fin 0, lostEndEffector⟩
          (fun i => .fin (clashCommand i)) daemonObstacles = .error e) ↔
        ¬JointDataFinite ⟨fun i => .fin (spikePosition i), fun _ => .fin 0, lostEndEffector⟩
          (fun i => .fin (clashCommand i))) ∧
      (∀ obs rest, daemonObstacles = obs :: rest → UnorderedFor daemonLimits lostEndEffector obs →
        obstacleRow daemonLimits lostEndEffector daemonObstacles =
          ⟨Pi.single 5 (-1), -(daemonLimits : KinematicLimits ℝ).torqueMax 5⟩) ∧
      ((∀ obs ∈ daemonObstacles, UnorderedFor daemonLimits lostEndEffector obs) →
        minMargin daemonLimits lostEndEffector daemonObstacles = .fin 100) :=
  filterTorques_unordered_iff daemonLimits
    ⟨fun i => .fin (spikePosition i), fun _ => .fin 0, lostEndEffector⟩
    (fun i => .fin (clashCommand i))
    ⟨_, List.mem_cons_self, lostEndEffector_unordered daemonLimits _⟩

/-- With its end effector lost, the start's arm pushes on with 10 Nm: no row and no
flag tells. -/
theorem filterTorques_lost :
    (∃ obs ∈ daemonObstacles, UnorderedFor daemonLimits lostEndEffector obs) ∧
    filterTorques daemonLimits
        ⟨fun i => .fin (spikePosition i), fun _ => .fin 0, lostEndEffector⟩
        (fun i => .fin (clashCommand i)) daemonObstacles =
      .ok ⟨fun i => .fin (clashCommand i), false, .fin 100⟩ := by
  have standard := (DaemonArm.start (K := ℝ)).standard
  have all := lostEndEffector_unordered daemonLimits
  have accepted : filteredTorque daemonLimits spikePosition lostEndEffector daemonObstacles
      clashCommand = clashCommand := start_accepted (all _).permits
  refine ⟨⟨_, List.mem_cons_self, all _⟩, ?_⟩
  rw [filterTorques_flagged (standard.order spikePosition) (fun _ => 0) clashCommand, accepted,
    intervened_self, minMargin_nan fun obs _ => all obs]

end Daemon

end NeuroKinetic
