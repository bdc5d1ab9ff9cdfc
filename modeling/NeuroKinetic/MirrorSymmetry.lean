import NeuroKinetic.RowSatisfaction

open Matrix RidgeProjection

namespace NeuroKinetic

variable {K : Type} [Field K] [LinearOrder K] [IsStrictOrderedRing K]

/-- Limits that look the same in a mirror. -/
structure MirrorLimits (limits : KinematicLimits K) : Prop where
  symmetric : ∀ i, limits.qMin i = -limits.qMax i
  range : ∀ i, 0.1 ≤ limits.qMax i
  torque : ∀ i, 87 ≤ limits.torqueMax i

section Bounds

variable {limits : KinematicLimits K}

omit [IsStrictOrderedRing K] in
theorem MirrorLimits.mirrorLimits_eq (h : MirrorLimits limits) : mirrorLimits limits = limits := by
  have low : limits.qMin = -limits.qMax := funext h.symmetric
  rw [mirrorLimits, low, neg_neg, ← low]

theorem MirrorLimits.maxAllowedTorque_neg (h : MirrorLimits limits) (q : Fin DOF → K)
    (i : Fin DOF) : maxAllowedTorque limits (-q) i = -minAllowedTorque limits q i := by
  rw [minAllowedTorque_eq_mirror, h.mirrorLimits_eq, neg_neg]

theorem MirrorLimits.minAllowedTorque_neg (h : MirrorLimits limits) (q : Fin DOF → K)
    (i : Fin DOF) : minAllowedTorque limits (-q) i = -maxAllowedTorque limits q i := by
  rw [minAllowedTorque_eq_mirror, h.mirrorLimits_eq, neg_neg]

theorem MirrorLimits.neg_le_maxAllowedTorque (h : MirrorLimits limits) (q : Fin DOF → K)
    (i : Fin DOF) : -87 ≤ maxAllowedTorque limits q i := by
  have torque := h.torque i
  apply le_maxAllowedTorque_of
  · exact le_stdClamp (by norm_num)
  · norm_num
  · linarith

/-- Past the upper limit the lower one is far away and asks for nothing. -/
theorem MirrorLimits.order_of_nonneg (h : MirrorLimits limits) {q : Fin DOF → K} {i : Fin DOF}
    (side : 0 ≤ q i) : minAllowedTorque limits q i ≤ maxAllowedTorque limits q i := by
  have range := h.range i
  have torque := h.torque i
  have rest : 0 ≤ limits.torqueMax i := le_trans (by norm_num) torque
  by_cases inside : q i ≤ limits.qMax i
  · have low : limits.qMin i ≤ q i := by
      rw [h.symmetric i]
      norm_num at range
      linarith
    exact (minAllowedTorque_nonpos_of rest low).trans (maxAllowedTorque_nonneg_of rest inside)
  · have far : ¬q i - limits.qMin i < 0.15 := by
      rw [h.symmetric i]
      norm_num at range ⊢
      linarith
    have ceiling := h.neg_le_maxAllowedTorque q i
    simp only [minAllowedTorque, if_neg far]
    linarith

theorem MirrorLimits.order (h : MirrorLimits limits) (q : Fin DOF → K) (i : Fin DOF) :
    minAllowedTorque limits q i ≤ maxAllowedTorque limits q i := by
  rcases le_total 0 (q i) with side | side
  · exact h.order_of_nonneg side
  · have mirrored := h.order_of_nonneg (q := -q) (i := i) (neg_nonneg.mpr side)
    rw [h.minAllowedTorque_neg, h.maxAllowedTorque_neg] at mirrored
    exact neg_le_neg_iff.mp mirrored

end Bounds

section Rows

variable {limits : KinematicLimits K} {q u : Fin DOF → K} {i : Fin DOF}

theorem MirrorLimits.upperViolated_neg (h : MirrorLimits limits) :
    UpperViolated limits (-q) (-u) i ↔ LowerViolated limits q u i := by
  rw [UpperViolated, LowerViolated, h.maxAllowedTorque_neg, Pi.neg_apply]
  constructor <;> intro violated <;> linarith

theorem MirrorLimits.lowerViolated_neg (h : MirrorLimits limits) :
    LowerViolated limits (-q) (-u) i ↔ UpperViolated limits q u i := by
  rw [UpperViolated, LowerViolated, h.minAllowedTorque_neg, Pi.neg_apply]
  constructor <;> intro violated <;> linarith

theorem MirrorLimits.limitViolated_neg (h : MirrorLimits limits) :
    LimitViolated limits (-q) (-u) i ↔ LimitViolated limits q u i := by
  rw [LimitViolated, LimitViolated, h.upperViolated_neg, h.lowerViolated_neg]
  exact or_comm

theorem MirrorLimits.limitTarget_neg (h : MirrorLimits limits) :
    limitTarget limits (-q) (-u) i = -limitTarget limits q u i := by
  simp only [limitTarget, h.upperViolated_neg, h.lowerViolated_neg, h.maxAllowedTorque_neg,
    h.minAllowedTorque_neg]
  by_cases upper : UpperViolated limits q u i <;> by_cases lower : LowerViolated limits q u i <;>
    simp [upper, lower, add_comm]

theorem MirrorLimits.limitWeight_neg (h : MirrorLimits limits) :
    limitWeight limits (-q) (-u) i = limitWeight limits q u i := by
  simp only [limitWeight, h.upperViolated_neg, h.lowerViolated_neg]
  exact add_comm _ _

end Rows

section Filter

variable [SquareRoot K] {limits : KinematicLimits K} {q u : Fin DOF → K}
  {eePos eePos' : Fin 3 → Ieee K} {i : Fin DOF}

omit [IsStrictOrderedRing K] in
theorem someViolated_nil : SomeViolated limits q eePos [] u ↔ ∃ i, LimitViolated limits q u i :=
  or_iff_left fun h => h.1 rfl

omit [IsStrictOrderedRing K] in
theorem jointMean_nil : jointMean limits q eePos [] u i =
    ridgeMean (limitWeight limits q u i) (u i) (limitTarget limits q u i) := by
  have none : ¬obstacleActs limits q eePos [] u i := fun h => h.2.1.1 rfl
  simp only [jointMean, if_neg none, add_zero, ridgeMean]

theorem MirrorLimits.filteredTorque_neg (h : MirrorLimits limits) :
    filteredTorque limits (-q) eePos' [] (-u) i = -filteredTorque limits q eePos [] u i := by
  have mean : jointMean limits (-q) eePos' [] (-u) i = -jointMean limits q eePos [] u i := by
    rw [jointMean_nil, jointMean_nil, h.limitTarget_neg, h.limitWeight_neg, Pi.neg_apply,
      ridgeMean_neg]
  have nonneg : 0 ≤ limits.torqueMax i := le_trans (by norm_num) (h.torque i)
  simp only [filteredTorque, someViolated_nil, h.limitViolated_neg, mean, stdClamp_neg nonneg]
  split
  next => rfl
  next => rfl

omit [IsStrictOrderedRing K] in
theorem intervened_neg (safe nominal : Fin DOF → K) :
    intervened (-safe) (-nominal) = intervened safe nominal := by
  have change : -safe - -nominal = -(safe - nominal) := by
    rw [neg_sub_neg, neg_sub]
  rw [intervened, intervened, change, neg_dotProduct_neg]

end Filter

/-- Without obstacles the mirrored arm under the mirrored command gets the mirrored
torque, and reports the same. -/
theorem filterTorques_mirror {K : Type} [Field K] [LinearOrder K] [IsStrictOrderedRing K]
    [SquareRoot K] [ExactSolver K] {limits : KinematicLimits K} (h : MirrorLimits limits)
    (q qDot qDot' u : Fin DOF → K) (eePos eePos' : Fin 3 → Ieee K) :
    ∃ (output mirrored : SafetyOutput K) (safe : Fin DOF → K),
      filterTorques limits ⟨fun i => .fin (q i), fun i => .fin (qDot i), eePos⟩
        (fun i => .fin (u i)) [] = .ok output ∧
      filterTorques limits ⟨fun i => .fin (-q i), fun i => .fin (qDot' i), eePos'⟩
        (fun i => .fin (-u i)) [] = .ok mirrored ∧
      output.safeTorque = (fun i => .fin (safe i)) ∧
      mirrored.safeTorque = (fun i => .fin (-safe i)) ∧
      mirrored.interventionTriggered = output.interventionTriggered := by
  have torque : filteredTorque limits (-q) eePos' [] (-u) = -filteredTorque limits q eePos [] u :=
    funext fun _ => h.filteredTorque_neg
  have mirrored := filterTorques_flagged (h.order (-q)) qDot' (-u) eePos' []
  rw [torque, intervened_neg] at mirrored
  exact ⟨_, _, filteredTorque limits q eePos [] u,
    filterTorques_flagged (h.order q) qDot u eePos [], mirrored, rfl, rfl, rfl⟩

theorem daemonLimits_mirror : MirrorLimits (daemonLimits : KinematicLimits ℝ) := by
  refine ⟨fun _ => rfl, fun _ => ?_, fun _ => le_rfl⟩
  simp only [daemonLimits]
  norm_num

theorem filterTorques_mirror_daemon :
    ∃ (output mirrored : SafetyOutput ℝ) (safe : Fin DOF → ℝ),
      filterTorques daemonLimits
        ⟨fun i => .fin (clashPosition i), fun _ => .fin 0, daemonState.endEffectorPos⟩
        (fun i => .fin (clashCommand i)) [] = .ok output ∧
      filterTorques daemonLimits
        ⟨fun i => .fin (-clashPosition i), fun _ => .fin 0, daemonState.endEffectorPos⟩
        (fun i => .fin (-clashCommand i)) [] = .ok mirrored ∧
      output.safeTorque = (fun i => .fin (safe i)) ∧
      mirrored.safeTorque = (fun i => .fin (-safe i)) ∧
      mirrored.interventionTriggered = output.interventionTriggered :=
  filterTorques_mirror daemonLimits_mirror clashPosition (fun _ => 0) (fun _ => 0) clashCommand
    daemonState.endEffectorPos daemonState.endEffectorPos

end NeuroKinetic
