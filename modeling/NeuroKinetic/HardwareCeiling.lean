import NeuroKinetic.BoxProjection

open RidgeProjection

namespace NeuroKinetic

variable {K : Type} [Field K] [LinearOrder K]

section Exits

variable [SquareRoot K] [IsStrictOrderedRing K] {limits : KinematicLimits K} {q u : Fin DOF → K}
  {eePos : Fin 3 → Ieee K} {obstacles : List (Obstacle K)}

/-- A command beyond the motor's ceiling that every row accepts: the joint is close
enough to a limit for its ramp, which knows the literal 87 only, to replace `torqueMax`. -/
def RampPasses (limits : KinematicLimits K) (q : Fin DOF → K) (eePos : Fin 3 → Ieee K)
    (obstacles : List (Obstacle K)) (u : Fin DOF → K) : Prop :=
  RowsWithin limits q eePos obstacles 1e-4 u ∧
    ∃ i, (limits.qMax i - q i < 0.15 ∧ limits.torqueMax i + 1e-3 < u i) ∨
      (q i - limits.qMin i < 0.15 ∧ u i < -limits.torqueMax i - 1e-3)

theorem le_torqueMax_of_far {i : Fin DOF} (rows : RowsWithin limits q eePos obstacles 1e-4 u)
    (far : ¬limits.qMax i - q i < 0.15) : u i ≤ limits.torqueMax i + 1e-3 := by
  have ceiling := ((rowsWithin_iff (by norm_num)).mp rows i).ceiling
  simp only [maxAllowedTorque, if_neg far] at ceiling
  norm_num at ceiling ⊢
  linarith

theorem neg_torqueMax_le_of_far {i : Fin DOF} (rows : RowsWithin limits q eePos obstacles 1e-4 u)
    (far : ¬q i - limits.qMin i < 0.15) : -limits.torqueMax i - 1e-3 ≤ u i := by
  have floor := ((rowsWithin_iff (by norm_num)).mp rows i).floor
  simp only [minAllowedTorque, if_neg far] at floor
  norm_num at floor ⊢
  linarith

/-- The early exit does not saturate. -/
theorem accepted_within_torqueMax_iff (rows : RowsWithin limits q eePos obstacles 1e-4 u) :
    (∀ i, |u i| ≤ limits.torqueMax i + 1e-3) ↔ ¬RampPasses limits q eePos obstacles u := by
  constructor
  · rintro within ⟨_, i, ⟨_, above⟩ | ⟨_, below⟩⟩
    · exact absurd (abs_le.mp (within i)).2 (not_le.mpr above)
    · have least := (abs_le.mp (within i)).1
      linarith
  · intro quiet i
    rw [abs_le]
    constructor
    · by_cases near : q i - limits.qMin i < 0.15
      · have kept : ¬u i < -limits.torqueMax i - 1e-3 := fun h => quiet ⟨rows, i, Or.inr ⟨near, h⟩⟩
        linarith
      · have kept := neg_torqueMax_le_of_far rows near
        linarith
    · by_cases near : limits.qMax i - q i < 0.15
      · exact not_lt.mp fun h => quiet ⟨rows, i, Or.inl ⟨near, h⟩⟩
      · exact le_torqueMax_of_far rows near

/-- The ramp never asks for more than 87 Nm. -/
theorem not_rampPasses_of_hardware (strong : ∀ i, 87 ≤ limits.torqueMax i) :
    ¬RampPasses limits q eePos obstacles u := by
  rintro ⟨rows, i, ⟨near, above⟩ | ⟨near, below⟩⟩
  · have ceiling := ((rowsWithin_iff (by norm_num)).mp rows i).ceiling
    have ramp : maxAllowedTorque limits q i ≤ 87 :=
      maxAllowedTorque_le_of (stdClamp_le (by norm_num)) fun far => absurd near (not_lt.mpr far)
    have least := strong i
    norm_num at ceiling above
    linarith
  · have floor := ((rowsWithin_iff (by norm_num)).mp rows i).floor
    have ramp : maxAllowedTorque (mirrorLimits limits) (-q) i ≤ 87 := by
      refine maxAllowedTorque_le_of (stdClamp_le (by norm_num)) fun far => ?_
      rw [mirrorLimits_gap] at far
      exact absurd near (not_lt.mpr far)
    have least := strong i
    rw [minAllowedTorque_eq_mirror] at floor
    norm_num at floor below
    linarith

variable [ExactSolver K]

theorem solvedTorque_within_torqueMax_iff (strong : ∀ i, 0 < limits.torqueMax i) :
    (∀ i, |solvedTorque limits u (constraintRows limits q eePos obstacles) i| ≤
        limits.torqueMax i + 1e-3) ↔ ¬RampPasses limits q eePos obstacles u := by
  by_cases rows : RowsWithin limits q eePos obstacles 1e-4 u
  · rw [solvedTorque, if_pos (rowsWithin_iff_all.mp rows)]
    exact accepted_within_torqueMax_iff rows
  · rw [solvedTorque, if_neg fun all => rows (rowsWithin_iff_all.mpr all)]
    refine iff_of_true (fun i => ?_) fun passes => rows passes.1
    have range : -limits.torqueMax i ≤ limits.torqueMax i := by linarith [strong i]
    have saturated := abs_le.mpr ⟨le_stdClamp (v := projectActive u (activeRows u
      (constraintRows limits q eePos obstacles) []) i) range, stdClamp_le range⟩
    exact saturated.trans (le_add_of_nonneg_right (by norm_num))

end Exits

/-- Which inputs the hardware torque ceiling withstands. -/
theorem filterTorques_within_torqueMax_iff {K : Type} [Field K] [LinearOrder K]
    [IsStrictOrderedRing K] [SquareRoot K] [ExactSolver K] {limits : KinematicLimits K}
    (strong : ∀ i, 0 < limits.torqueMax i) (q qDot u : Fin DOF → K) (eePos : Fin 3 → Ieee K)
    (obstacles : List (Obstacle K)) :
    ∃ (output : SafetyOutput K) (safe : Fin DOF → K),
      filterTorques limits ⟨fun i => .fin (q i), fun i => .fin (qDot i), eePos⟩
        (fun i => .fin (u i)) obstacles = .ok output ∧
      output.safeTorque = (fun i => .fin (safe i)) ∧
      ((∀ i, |safe i| ≤ limits.torqueMax i + 1e-3) ↔ ¬RampPasses limits q eePos obstacles u) :=
  ⟨_, solvedTorque limits u (constraintRows limits q eePos obstacles),
    filterTorques_solved limits q qDot u eePos obstacles, rfl,
    solvedTorque_within_torqueMax_iff strong⟩

section Weak

/-- The daemon's arm with motors of 10 Nm. -/
noncomputable def weakLimits : KinematicLimits ℝ := { daemonLimits with torqueMax := fun _ => 10 }

/-- 50 Nm on joint 5, which starts 0.09 rad below its upper limit. -/
noncomputable def strongCommand : Fin DOF → ℝ := Pi.single 5 50

theorem weak_torqueMax_pos (i : Fin DOF) : 0 < weakLimits.torqueMax i := by
  simp only [weakLimits]
  norm_num

theorem weak_ceiling : maxAllowedTorque weakLimits spikePosition 5 = 78.3 := by
  have ramp : stdClamp (((2.89 : ℝ) - 2.80) * 10 * 87) (-87) 87 = 78.3 := by
    rw [stdClamp_of_mem] <;> norm_num
  have joint : spikePosition 5 = 2.80 := rfl
  simp only [maxAllowedTorque, weakLimits, daemonLimits, joint, ramp]
  norm_num

theorem weak_rowsWithin (eePos : Fin 3 → Ieee ℝ) :
    RowsWithin weakLimits spikePosition eePos [] 1e-4 strongCommand := by
  have floor := minAllowedTorque_nonpos_of (weak_torqueMax_pos 5).le (daemonStart_inside 5).1
  refine rowsWithin_single (by norm_num) (fun i => (weak_torqueMax_pos i).le) daemonStart_inside
    ⟨?_, ?_, fun _ hne => absurd rfl hne⟩
  · rw [weak_ceiling]
    norm_num
  · norm_num
    linarith

theorem weak_rampPasses (eePos : Fin 3 → Ieee ℝ) :
    RampPasses weakLimits spikePosition eePos [] strongCommand := by
  have joint : spikePosition 5 = 2.80 := rfl
  have command : strongCommand 5 = 50 := Pi.single_eq_same 5 50
  refine ⟨weak_rowsWithin eePos, 5, Or.inl ⟨?_, ?_⟩⟩
  · simp only [weakLimits, daemonLimits, joint]
    norm_num
  · rw [command]
    simp only [weakLimits]
    norm_num

theorem filterTorques_within_torqueMax_iff_weak :
    ∃ (output : SafetyOutput ℝ) (safe : Fin DOF → ℝ),
      filterTorques weakLimits
        ⟨fun i => .fin (spikePosition i), fun _ => .fin 0, daemonState.endEffectorPos⟩
        (fun i => .fin (strongCommand i)) [] = .ok output ∧
      output.safeTorque = (fun i => .fin (safe i)) ∧
      ((∀ i, |safe i| ≤ weakLimits.torqueMax i + 1e-3) ↔
        ¬RampPasses weakLimits spikePosition daemonState.endEffectorPos [] strongCommand) :=
  filterTorques_within_torqueMax_iff weak_torqueMax_pos spikePosition (fun _ => 0) strongCommand
    daemonState.endEffectorPos []

/-- A 10 Nm motor is sent 50 Nm, because its joint is near a limit. -/
theorem filterTorques_weak :
    (∀ i, weakLimits.qMin i < weakLimits.qMax i ∧ 0 < weakLimits.torqueMax i) ∧
    ∃ (output : SafetyOutput ℝ) (safe : Fin DOF → ℝ),
      filterTorques weakLimits
        ⟨fun i => .fin (spikePosition i), fun _ => .fin 0, daemonState.endEffectorPos⟩
        (fun i => .fin (strongCommand i)) [] = .ok output ∧
      output.safeTorque = (fun i => .fin (safe i)) ∧
      ¬∀ i, |safe i| ≤ weakLimits.torqueMax i + 1e-3 := by
  refine ⟨fun i => ⟨?_, weak_torqueMax_pos i⟩, _, _, filterTorques_solved weakLimits spikePosition
    (fun _ => 0) strongCommand daemonState.endEffectorPos [], rfl, fun within => ?_⟩
  · simp only [weakLimits, daemonLimits]
    norm_num
  · exact (solvedTorque_within_torqueMax_iff weak_torqueMax_pos).mp within (weak_rampPasses _)

end Weak

end NeuroKinetic
