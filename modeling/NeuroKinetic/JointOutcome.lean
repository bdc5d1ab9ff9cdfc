import NeuroKinetic.FilteredTorque

namespace NeuroKinetic

variable {K : Type} [Field K] [LinearOrder K]

/-- Mean of `count` bounds with the given total and of the command, which the
ridge gives a millionth of a bound's weight. -/
def ridgeMean (count u total : K) : K := (1e-6 * u + total) / (count + 1e-6)

section Mean

variable [IsStrictOrderedRing K] {count u total total' b : K}

theorem ridgeMean_le (hc : 0 ≤ count) (h : 1e-6 * u + total ≤ b * (count + 1e-6)) :
    ridgeMean count u total ≤ b := by
  have weight : 0 < count + 1e-6 := add_pos_of_nonneg_of_pos hc (by norm_num)
  exact (div_le_iff₀ weight).mpr h

theorem le_ridgeMean (hc : 0 ≤ count) (h : b * (count + 1e-6) ≤ 1e-6 * u + total) :
    b ≤ ridgeMean count u total := by
  have weight : 0 < count + 1e-6 := add_pos_of_nonneg_of_pos hc (by norm_num)
  exact (le_div_iff₀ weight).mpr h

theorem ridgeMean_mul (hc : 0 ≤ count) (u total : K) :
    ridgeMean count u total * (count + 1e-6) = 1e-6 * u + total := by
  have weight : 0 < count + 1e-6 := add_pos_of_nonneg_of_pos hc (by norm_num)
  exact div_mul_cancel₀ _ weight.ne'

theorem ridgeMean_mono (hc : 0 ≤ count) (h : total ≤ total') :
    ridgeMean count u total ≤ ridgeMean count u total' := by
  apply ridgeMean_le hc
  rw [ridgeMean_mul hc]
  linarith

theorem ridgeMean_one_le_bound (h : u ≤ b) : ridgeMean 1 u b ≤ b :=
  ridgeMean_le zero_le_one (by norm_num at h ⊢; linarith)

theorem bound_le_ridgeMean_one (h : b ≤ u) : b ≤ ridgeMean 1 u b :=
  le_ridgeMean zero_le_one (by norm_num at h ⊢; linarith)

theorem ridgeMean_one_le_command (h : b ≤ u) : ridgeMean 1 u b ≤ u :=
  ridgeMean_le zero_le_one (by norm_num at h ⊢; linarith)

theorem command_le_ridgeMean_one (h : u ≤ b) : u ≤ ridgeMean 1 u b :=
  le_ridgeMean zero_le_one (by norm_num at h ⊢; linarith)

theorem ridgeMean_zero (u : K) : ridgeMean 0 u 0 = u := by
  have ridge : (1e-6 : K) ≠ 0 := by norm_num
  rw [ridgeMean, zero_add, add_zero, mul_div_cancel_left₀ u ridge]

omit [LinearOrder K] [IsStrictOrderedRing K] in
theorem ridgeMean_neg (count u total : K) :
    ridgeMean count (-u) (-total) = -ridgeMean count u total := by
  rw [ridgeMean, ridgeMean, ← neg_div]
  congr 1
  ring

end Mean

section Outcome

variable [SquareRoot K]

/-- The torque one joint ends with, by which of its rows are active. -/
inductive JointOutcome (limits : KinematicLimits K) (q : Fin DOF → K) (eePos : Fin 3 → Ieee K)
    (obstacles : List (Obstacle K)) (u : Fin DOF → K) (i : Fin DOF) : K → Prop
  | accepted (t : K) (upper : ¬UpperViolated limits q u i) (lower : ¬LowerViolated limits q u i)
      (obstacle : ¬(i = 5 ∧ ObstacleViolated limits eePos obstacles u))
      (value : t = u i ∨ t = stdClamp (u i) (-limits.torqueMax i) (limits.torqueMax i)) :
      JointOutcome limits q eePos obstacles u i t
  | ceiling (upper : UpperViolated limits q u i)
      (obstacle : ¬obstacleActs limits q eePos obstacles u i) :
      JointOutcome limits q eePos obstacles u i
        (stdClamp (ridgeMean 1 (u i) (maxAllowedTorque limits q i))
          (-limits.torqueMax i) (limits.torqueMax i))
  | floor (lower : LowerViolated limits q u i)
      (obstacle : ¬obstacleActs limits q eePos obstacles u i) :
      JointOutcome limits q eePos obstacles u i
        (stdClamp (ridgeMean 1 (u i) (minAllowedTorque limits q i))
          (-limits.torqueMax i) (limits.torqueMax i))
  | obstacle (upper : ¬UpperViolated limits q u i) (lower : ¬LowerViolated limits q u i)
      (obstacle : obstacleActs limits q eePos obstacles u i) :
      JointOutcome limits q eePos obstacles u i
        (stdClamp (ridgeMean 1 (u i) (obstacleBound limits eePos obstacles))
          (-limits.torqueMax i) (limits.torqueMax i))
  | ceilingObstacle (upper : UpperViolated limits q u i)
      (obstacle : obstacleActs limits q eePos obstacles u i) :
      JointOutcome limits q eePos obstacles u i
        (stdClamp (ridgeMean 2 (u i)
            (maxAllowedTorque limits q i + obstacleBound limits eePos obstacles))
          (-limits.torqueMax i) (limits.torqueMax i))
  | floorObstacle (lower : LowerViolated limits q u i)
      (obstacle : obstacleActs limits q eePos obstacles u i) :
      JointOutcome limits q eePos obstacles u i
        (stdClamp (ridgeMean 2 (u i)
            (minAllowedTorque limits q i + obstacleBound limits eePos obstacles))
          (-limits.torqueMax i) (limits.torqueMax i))

theorem obstacleActs_iff_of_free {limits : KinematicLimits K} {q u : Fin DOF → K}
    {eePos : Fin 3 → Ieee K} {obstacles : List (Obstacle K)} {i : Fin DOF}
    (upper : ¬UpperViolated limits q u i) (lower : ¬LowerViolated limits q u i) :
    obstacleActs limits q eePos obstacles u i ↔
      i = 5 ∧ ObstacleViolated limits eePos obstacles u := by
  constructor
  · exact fun h => ⟨h.1, h.2.1⟩
  · exact fun h => ⟨h.1, h.2, fun all => (all i).elim upper lower⟩

variable [IsStrictOrderedRing K]

theorem filteredTorque_outcome {limits : KinematicLimits K} {q u : Fin DOF → K} {i : Fin DOF}
    (order : minAllowedTorque limits q i ≤ maxAllowedTorque limits q i)
    (eePos : Fin 3 → Ieee K) (obstacles : List (Obstacle K)) :
    JointOutcome limits q eePos obstacles u i (filteredTorque limits q eePos obstacles u i) := by
  by_cases some : SomeViolated limits q eePos obstacles u
  · simp only [filteredTorque, if_pos some, jointMean, limitTarget, limitWeight]
    by_cases upper : UpperViolated limits q u i
    · have lower := not_both_violated order upper
      by_cases obstacle : obstacleActs limits q eePos obstacles u i
      · have outcome := JointOutcome.ceilingObstacle upper obstacle
        simpa [ridgeMean, upper, lower, obstacle, one_add_one_eq_two] using outcome
      · have outcome := JointOutcome.ceiling upper obstacle
        simpa [ridgeMean, upper, lower, obstacle] using outcome
    · by_cases lower : LowerViolated limits q u i
      · by_cases obstacle : obstacleActs limits q eePos obstacles u i
        · have outcome := JointOutcome.floorObstacle lower obstacle
          simpa [ridgeMean, upper, lower, obstacle, one_add_one_eq_two] using outcome
        · have outcome := JointOutcome.floor lower obstacle
          simpa [ridgeMean, upper, lower, obstacle] using outcome
      · by_cases obstacle : obstacleActs limits q eePos obstacles u i
        · have outcome := JointOutcome.obstacle upper lower obstacle
          simpa [ridgeMean, upper, lower, obstacle] using outcome
        · have free := fun h => obstacle ((obstacleActs_iff_of_free upper lower).mpr h)
          have outcome := JointOutcome.accepted _ upper lower free (Or.inr rfl)
          rw [← ridgeMean_zero (u i)] at outcome
          simpa [ridgeMean, upper, lower, obstacle] using outcome
  · simp only [filteredTorque, if_neg some]
    have quiet := not_or.mp some
    have limit := not_exists.mp quiet.1 i
    exact JointOutcome.accepted _ (fun h => limit (Or.inl h)) (fun h => limit (Or.inr h))
      (fun h => quiet.2 h.2) (Or.inl rfl)

end Outcome

end NeuroKinetic
