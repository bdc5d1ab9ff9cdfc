import NeuroKinetic.Kernel
import Mathlib.Tactic.NormNum
import Mathlib.Tactic.Linarith
import Mathlib.Tactic.Ring

namespace NeuroKinetic

variable {K : Type} [Field K] [LinearOrder K] [IsStrictOrderedRing K]

/-- Limits of the shipped arm's kind: 87 Nm on every joint, and a range wide
enough that the two ramps of one joint never meet. -/
structure StandardLimits (limits : KinematicLimits K) : Prop where
  torque : ∀ i, limits.torqueMax i = 87
  width : ∀ i, 0.3 ≤ limits.qMax i - limits.qMin i

section Saturation

variable {limits : KinematicLimits K} {i : Fin DOF} {v c : K}

theorem saturated_le (ht : limits.torqueMax i = 87) (h : v ≤ c) (hc : -87 ≤ c) :
    stdClamp v (-limits.torqueMax i) (limits.torqueMax i) ≤ c := by
  rw [ht]
  exact stdClamp_le_of_le (by norm_num) h hc

theorem le_saturated (ht : limits.torqueMax i = 87) (h : c ≤ v) (hc : c ≤ 87) :
    c ≤ stdClamp v (-limits.torqueMax i) (limits.torqueMax i) := by
  rw [ht]
  exact le_stdClamp_of_le (by norm_num) h hc

end Saturation

section Ceiling

variable {limits : KinematicLimits K} {q : Fin DOF → K} {i : Fin DOF} {c : K}

omit [IsStrictOrderedRing K] in
theorem maxAllowedTorque_le_of (ramp : stdClamp ((limits.qMax i - q i) * 10 * 87) (-87) 87 ≤ c)
    (far : 0.15 ≤ limits.qMax i - q i → limits.torqueMax i ≤ c) :
    maxAllowedTorque limits q i ≤ c := by
  simp only [maxAllowedTorque]
  split
  next =>
    split
    next => exact (min_le_left _ _).trans ramp
    next => exact ramp
  next away => exact far (not_lt.mp away)

omit [IsStrictOrderedRing K] in
theorem le_maxAllowedTorque_of (ramp : c ≤ stdClamp ((limits.qMax i - q i) * 10 * 87) (-87) 87)
    (cutOff : c ≤ 0.33) (far : c ≤ limits.torqueMax i) : c ≤ maxAllowedTorque limits q i := by
  simp only [maxAllowedTorque]
  split
  next =>
    split
    next => exact le_min ramp cutOff
    next => exact ramp
  next => exact far

end Ceiling

theorem maxAllowedTorque_le (limits : KinematicLimits K) (q : Fin DOF → K) {i : Fin DOF}
    (ht : limits.torqueMax i = 87) : maxAllowedTorque limits q i ≤ 87 := by
  apply maxAllowedTorque_le_of
  · exact stdClamp_le (by norm_num)
  · exact fun _ => ht.le

theorem neg_le_maxAllowedTorque (limits : KinematicLimits K) (q : Fin DOF → K) {i : Fin DOF}
    (ht : limits.torqueMax i = 87) : -87 ≤ maxAllowedTorque limits q i := by
  apply le_maxAllowedTorque_of
  · exact le_stdClamp (by norm_num)
  · norm_num
  · rw [ht]
    norm_num

/-- The ramp bounds the torque ceiling wherever its lower clamp is not reached. -/
theorem maxAllowedTorque_le_ramp {limits : KinematicLimits K} {q : Fin DOF → K} {i : Fin DOF}
    (ht : limits.torqueMax i = 87) (near : -0.1 ≤ limits.qMax i - q i) :
    maxAllowedTorque limits q i ≤ 870 * (limits.qMax i - q i) := by
  apply maxAllowedTorque_le_of
  · apply stdClamp_le_of_le (by norm_num) (by linarith)
    norm_num at near ⊢
    linarith
  · intro far
    rw [ht]
    norm_num at far
    linarith

theorem maxAllowedTorque_past {limits : KinematicLimits K} {q : Fin DOF → K} {i : Fin DOF}
    (past : limits.qMax i - q i < -0.0005) : maxAllowedTorque limits q i ≤ -0.435 := by
  apply maxAllowedTorque_le_of
  · apply stdClamp_le_of_le (by norm_num) _ (by norm_num)
    norm_num at past ⊢
    linarith
  · intro far
    exact absurd (far.trans_lt past) (by norm_num)

/-- Inside the upper limit any motor may at least rest. -/
theorem maxAllowedTorque_nonneg_of {limits : KinematicLimits K} {q : Fin DOF → K} {i : Fin DOF}
    (ht : 0 ≤ limits.torqueMax i) (inside : q i ≤ limits.qMax i) :
    0 ≤ maxAllowedTorque limits q i := by
  apply le_maxAllowedTorque_of
  · exact le_stdClamp_of_le (by norm_num) (by linarith) (by norm_num)
  · norm_num
  · exact ht

theorem maxAllowedTorque_nonneg {limits : KinematicLimits K} {q : Fin DOF → K} {i : Fin DOF}
    (ht : limits.torqueMax i = 87) (inside : q i ≤ limits.qMax i) :
    0 ≤ maxAllowedTorque limits q i :=
  maxAllowedTorque_nonneg_of (by rw [ht]; norm_num) inside

/-- The limits of the arm seen in a mirror: upper and lower change places. -/
def mirrorLimits (limits : KinematicLimits K) : KinematicLimits K :=
  { limits with qMin := -limits.qMax, qMax := -limits.qMin }

theorem StandardLimits.mirror {limits : KinematicLimits K} (h : StandardLimits limits) :
    StandardLimits (mirrorLimits limits) := by
  refine ⟨h.torque, fun i => ?_⟩
  have := h.width i
  simp only [mirrorLimits, Pi.neg_apply]
  linarith

omit [LinearOrder K] [IsStrictOrderedRing K] in
theorem mirrorLimits_gap (limits : KinematicLimits K) (q : Fin DOF → K) (i : Fin DOF) :
    (mirrorLimits limits).qMax i - (-q) i = q i - limits.qMin i := by
  simp only [mirrorLimits, Pi.neg_apply]
  ring

/-- The lower-limit code is the upper-limit code of the mirrored arm. -/
theorem minAllowedTorque_eq_mirror (limits : KinematicLimits K) (q : Fin DOF → K) (i : Fin DOF) :
    minAllowedTorque limits q i = -maxAllowedTorque (mirrorLimits limits) (-q) i := by
  have gap := mirrorLimits_gap limits q i
  have ramp : stdClamp (-(q i - limits.qMin i) * 10 * 87) (-87) 87 =
      -stdClamp ((q i - limits.qMin i) * 10 * 87) (-87) (87 : K) := by
    rw [← stdClamp_neg (by norm_num)]
    congr 1
    ring
  simp only [minAllowedTorque, maxAllowedTorque, gap, ramp]
  split
  next =>
    split
    next => rw [min_def, max_def]; split <;> split <;> first | rfl | linarith
    next => rfl
  next => rfl

theorem minAllowedTorque_le (limits : KinematicLimits K) (q : Fin DOF → K) {i : Fin DOF}
    (ht : limits.torqueMax i = 87) : minAllowedTorque limits q i ≤ 87 := by
  rw [minAllowedTorque_eq_mirror]
  have := neg_le_maxAllowedTorque (mirrorLimits limits) (-q) ht
  linarith

theorem neg_le_minAllowedTorque (limits : KinematicLimits K) (q : Fin DOF → K) {i : Fin DOF}
    (ht : limits.torqueMax i = 87) : -87 ≤ minAllowedTorque limits q i := by
  rw [minAllowedTorque_eq_mirror]
  have := maxAllowedTorque_le (mirrorLimits limits) (-q) ht
  linarith

theorem minAllowedTorque_nonpos_of {limits : KinematicLimits K} {q : Fin DOF → K} {i : Fin DOF}
    (ht : 0 ≤ limits.torqueMax i) (inside : limits.qMin i ≤ q i) :
    minAllowedTorque limits q i ≤ 0 := by
  rw [minAllowedTorque_eq_mirror, neg_nonpos]
  exact maxAllowedTorque_nonneg_of ht (neg_le_neg inside)

theorem minAllowedTorque_nonpos {limits : KinematicLimits K} {q : Fin DOF → K} {i : Fin DOF}
    (ht : limits.torqueMax i = 87) (inside : limits.qMin i ≤ q i) :
    minAllowedTorque limits q i ≤ 0 :=
  minAllowedTorque_nonpos_of (by rw [ht]; norm_num) inside

omit [IsStrictOrderedRing K] in
theorem minAllowedTorque_far {limits : KinematicLimits K} {q : Fin DOF → K} {i : Fin DOF}
    (ht : limits.torqueMax i = 87) (far : 0.15 ≤ q i - limits.qMin i) :
    minAllowedTorque limits q i = -87 := by
  simp only [minAllowedTorque, if_neg (not_lt.mpr far), ht]

omit [IsStrictOrderedRing K] in
theorem maxAllowedTorque_far {limits : KinematicLimits K} {q : Fin DOF → K} {i : Fin DOF}
    (ht : limits.torqueMax i = 87) (far : 0.15 ≤ limits.qMax i - q i) :
    maxAllowedTorque limits q i = 87 := by
  simp only [maxAllowedTorque, if_neg (not_lt.mpr far), ht]

/-- On a wide enough joint the two torque bounds never cross. -/
theorem minAllowedTorque_le_maxAllowedTorque {limits : KinematicLimits K} {i : Fin DOF}
    (ht : limits.torqueMax i = 87) (hw : 0.3 ≤ limits.qMax i - limits.qMin i)
    (q : Fin DOF → K) : minAllowedTorque limits q i ≤ maxAllowedTorque limits q i := by
  by_cases near : limits.qMax i - q i < 0.15
  · have far : (0.15 : K) ≤ q i - limits.qMin i := by norm_num at hw near ⊢; linarith
    rw [minAllowedTorque_far ht far]
    exact neg_le_maxAllowedTorque limits q ht
  · rw [maxAllowedTorque_far ht (not_lt.mp near)]
    exact minAllowedTorque_le limits q ht

end NeuroKinetic
