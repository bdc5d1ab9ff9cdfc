import NeuroKinetic.LimitApproach
import NeuroKinetic.FailSafe

namespace NeuroKinetic

variable {K : Type} [Field K] [LinearOrder K] [IsStrictOrderedRing K]

section Mean

variable {u b : K}

/-- The ridge lets a command of at most 1000 Nm leak one part in a million. -/
theorem ridgeMean_one_le (hu : u ≤ 1000) (hb : -87 ≤ b) : ridgeMean 1 u b ≤ b + 0.0011 := by
  apply ridgeMean_le zero_le_one
  norm_num
  linarith

theorem le_ridgeMean_one (hu : -1000 ≤ u) (hb : b ≤ 87) : b - 0.0011 ≤ ridgeMean 1 u b := by
  apply le_ridgeMean zero_le_one
  norm_num
  linarith

theorem ridgeMean_two_le (hu : u ≤ 1000) (hb : -87 ≤ b) :
    ridgeMean 2 u (b + 0.05) ≤ (b + 0.0511) / 2 := by
  apply ridgeMean_le zero_le_two
  norm_num
  linarith

theorem ridgeMean_two_nonneg (hu : 0 ≤ u) (hb : 0 ≤ b) : 0 ≤ ridgeMean 2 u (b + 0.05) := by
  apply le_ridgeMean zero_le_two
  norm_num
  linarith

end Mean

section Bounds

variable [SquareRoot K] {limits : KinematicLimits K} {q u : Fin DOF → K} {i : Fin DOF}
  {eePos : Fin 3 → Ieee K} {obstacles : List (Obstacle K)}

/-- The obstacle row only ever acts with its restrictive bound. -/
def ObstacleRestricts (limits : KinematicLimits K) (eePos : Fin 3 → Ieee K)
    (obstacles : List (Obstacle K)) (u : Fin DOF → K) : Prop :=
  ObstacleViolated limits eePos obstacles u → obstacleBound limits eePos obstacles = 0.05

theorem neg_le_filteredTorque (standard : StandardLimits limits) :
    -87.0001 ≤ filteredTorque limits q eePos obstacles u i := by
  have ht := standard.torque i
  have bottom : ∀ x : K, -87.0001 ≤ stdClamp x (-limits.torqueMax i) (limits.torqueMax i) := by
    intro x
    rw [ht]
    exact le_trans (by norm_num) (le_stdClamp (by norm_num))
  have outcome := filteredTorque_outcome (u := u) (standard.order q i) eePos obstacles
  generalize filteredTorque limits q eePos obstacles u i = t at outcome
  cases outcome with
  | accepted _ _ lower _ value =>
    rcases value with value | value
    · have bound := neg_le_minAllowedTorque limits q ht
      have floor := not_lt.mp lower
      norm_num at floor ⊢
      linarith
    · rw [value]
      exact bottom _
  | _ => exact bottom _

theorem filteredTorque_le_ceiling (standard : StandardLimits limits) :
    filteredTorque limits q eePos obstacles u i ≤ 87.0001 := by
  have ht := standard.torque i
  have top : ∀ x : K, stdClamp x (-limits.torqueMax i) (limits.torqueMax i) ≤ 87.0001 := by
    intro x
    rw [ht]
    exact (stdClamp_le (by norm_num)).trans (by norm_num)
  have outcome := filteredTorque_outcome (u := u) (standard.order q i) eePos obstacles
  generalize filteredTorque limits q eePos obstacles u i = t at outcome
  cases outcome with
  | accepted _ upper _ _ value =>
    rcases value with value | value
    · have bound := maxAllowedTorque_le limits q ht
      have ceiling := not_lt.mp upper
      norm_num at ceiling ⊢
      linarith
    · rw [value]
      exact top _
  | _ => exact top _

/-- Near the upper limit a joint gets its ceiling, or on joint 5 at most the
mean of the ceiling and the obstacle bound. -/
theorem filteredTorque_near_upper (standard : StandardLimits limits) (hu : |u i| ≤ 1000)
    (restricts : ObstacleRestricts limits eePos obstacles u)
    (far : 0.15 ≤ q i - limits.qMin i) :
    filteredTorque limits q eePos obstacles u i ≤ maxAllowedTorque limits q i + 0.0011 ∨
      filteredTorque limits q eePos obstacles u i ≤ (maxAllowedTorque limits q i + 0.0511) / 2 := by
  have ht := standard.torque i
  have least := neg_le_maxAllowedTorque limits q ht
  have floor := minAllowedTorque_far ht far
  have room : -87 ≤ maxAllowedTorque limits q i + 0.0011 := by
    norm_num
    linarith
  obtain ⟨below, above⟩ := abs_le.mp hu
  have outcome := filteredTorque_outcome (u := u) (standard.order q i) eePos obstacles
  generalize filteredTorque limits q eePos obstacles u i = t at outcome
  cases outcome with
  | accepted _ upper _ _ value =>
    left
    have ceiling := not_lt.mp upper
    have command : u i ≤ maxAllowedTorque limits q i + 0.0011 := by
      norm_num at ceiling ⊢
      linarith
    rcases value with value | value
    · rwa [value]
    · rw [value]
      exact saturated_le ht command room
  | ceiling _ _ =>
    left
    exact saturated_le ht (ridgeMean_one_le above least) room
  | floor lower _ =>
    left
    have mean := ridgeMean_one_le_bound lower.le_floor
    rw [floor] at mean ⊢
    exact saturated_le ht (mean.trans room) room
  | obstacle upper _ acts =>
    left
    obtain ⟨rfl, active⟩ := acts
    have mean := ridgeMean_one_le_command active.1.bound_le
    have ceiling := not_lt.mp upper
    have command : u 5 ≤ maxAllowedTorque limits q 5 + 0.0011 := by
      norm_num at ceiling ⊢
      linarith
    exact saturated_le ht (mean.trans command) room
  | ceilingObstacle _ acts =>
    right
    rw [restricts acts.2.1]
    apply saturated_le ht (ridgeMean_two_le above least)
    norm_num
    linarith
  | floorObstacle lower acts =>
    -- the floor is -87 here, so the command cannot also exceed the obstacle bound
    exfalso
    obtain ⟨rfl, active⟩ := acts
    have violated := active.1.bound_le
    have command := lower.le_floor
    rw [restricts active.1] at violated
    rw [floor] at command
    norm_num at violated
    linarith

/-- Near the lower limit a joint gets its floor, or no torque towards the limit. -/
theorem filteredTorque_near_lower (standard : StandardLimits limits) (hu : |u i| ≤ 1000)
    (restricts : ObstacleRestricts limits eePos obstacles u)
    (top : maxAllowedTorque limits q i = 87) :
    minAllowedTorque limits q i - 0.0011 ≤ filteredTorque limits q eePos obstacles u i ∨
      0 ≤ filteredTorque limits q eePos obstacles u i := by
  have ht := standard.torque i
  have most := minAllowedTorque_le limits q ht
  have room : minAllowedTorque limits q i - 0.0011 ≤ 87 := by
    norm_num
    linarith
  have forwards : ∀ {v : K}, 0 ≤ v → 0 ≤ stdClamp v (-limits.torqueMax i) (limits.torqueMax i) :=
    fun h => le_saturated ht h (by norm_num)
  obtain ⟨below, above⟩ := abs_le.mp hu
  have outcome := filteredTorque_outcome (u := u) (standard.order q i) eePos obstacles
  generalize filteredTorque limits q eePos obstacles u i = t at outcome
  cases outcome with
  | accepted _ _ lower _ value =>
    left
    have floor := not_lt.mp lower
    have command : minAllowedTorque limits q i - 0.0011 ≤ u i := by
      norm_num at floor ⊢
      linarith
    rcases value with value | value
    · rwa [value]
    · rw [value]
      exact le_saturated ht command room
  | ceiling upper _ =>
    right
    have mean := bound_le_ridgeMean_one upper.ceiling_le
    rw [top] at mean ⊢
    exact forwards (le_trans (by norm_num) mean)
  | floor _ _ =>
    left
    exact le_saturated ht (le_ridgeMean_one below most) room
  | obstacle _ _ acts =>
    right
    obtain ⟨rfl, active⟩ := acts
    have mean := bound_le_ridgeMean_one active.1.bound_le
    rw [restricts active.1] at mean ⊢
    exact forwards (le_trans (by norm_num) mean)
  | ceilingObstacle upper acts =>
    right
    have command := upper.ceiling_le
    rw [top] at command
    rw [restricts acts.2.1, top]
    exact forwards (ridgeMean_two_nonneg (by linarith) (by norm_num))
  | floorObstacle lower acts =>
    right
    obtain ⟨rfl, active⟩ := acts
    have violated := active.1.bound_le
    have floor := lower.le_floor
    rw [restricts active.1] at violated ⊢
    norm_num at violated
    exact forwards (ridgeMean_two_nonneg (by linarith) (by linarith))

theorem torqueTowards_upper (standard : StandardLimits limits) (hu : |u i| ≤ 1000)
    (restricts : ObstacleRestricts limits eePos obstacles u) :
    TorqueTowards (limits.qMax i - q i) (filteredTorque limits q eePos obstacles u i) := by
  have width := standard.width i
  have near : limits.qMax i - q i ≤ 0.1 →
      filteredTorque limits q eePos obstacles u i ≤ maxAllowedTorque limits q i + 0.0011 ∨
        filteredTorque limits q eePos obstacles u i ≤ (maxAllowedTorque limits q i + 0.0511) / 2 :=
    fun close => filteredTorque_near_upper standard hu restricts
      (by norm_num at width close ⊢; linarith)
  refine ⟨filteredTorque_le_ceiling standard, fun inside close => ?_, fun past => ?_⟩
  · have ramp := maxAllowedTorque_le_ramp (standard.torque i)
      (show -0.1 ≤ limits.qMax i - q i by norm_num at inside ⊢; linarith)
    have top := le_max_left (870 * (limits.qMax i - q i)) 0
    have zero := le_max_right (870 * (limits.qMax i - q i)) 0
    generalize max (870 * (limits.qMax i - q i)) 0 = m at top zero ⊢
    rcases near close with bound | bound <;>
    · norm_num at bound ⊢
      linarith
  · have back := maxAllowedTorque_past past
    rcases near (past.le.trans (by norm_num)) with bound | bound <;>
    · norm_num at bound back ⊢
      linarith

theorem torqueTowards_lower (standard : StandardLimits limits) (hu : |u i| ≤ 1000)
    (restricts : ObstacleRestricts limits eePos obstacles u) :
    TorqueTowards (q i - limits.qMin i) (-filteredTorque limits q eePos obstacles u i) := by
  have width := standard.width i
  have gap := mirrorLimits_gap limits q i
  have near : q i - limits.qMin i ≤ 0.1 →
      minAllowedTorque limits q i - 0.0011 ≤ filteredTorque limits q eePos obstacles u i ∨
        0 ≤ filteredTorque limits q eePos obstacles u i :=
    fun close => filteredTorque_near_lower standard hu restricts
      (maxAllowedTorque_far (standard.torque i) (by norm_num at width close ⊢; linarith))
  have mirror := minAllowedTorque_eq_mirror limits q i
  refine ⟨neg_le.mp (neg_le_filteredTorque standard), fun inside close => ?_, fun past => ?_⟩
  · have ramp := maxAllowedTorque_le_ramp (standard.mirror.torque i)
      (show -0.1 ≤ (mirrorLimits limits).qMax i - (-q) i by
        rw [gap]; norm_num at inside ⊢; linarith)
    rw [gap] at ramp
    have top := le_max_left (870 * (q i - limits.qMin i)) 0
    have zero := le_max_right (870 * (q i - limits.qMin i)) 0
    generalize max (870 * (q i - limits.qMin i)) 0 = m at top zero ⊢
    rcases near close with bound | bound <;>
    · norm_num at bound ⊢
      linarith
  · rw [← gap] at past
    have back := maxAllowedTorque_past past
    rw [gap] at past
    rcases near (past.le.trans (by norm_num)) with bound | bound <;>
    · norm_num at bound back ⊢
      linarith

end Bounds

end NeuroKinetic
