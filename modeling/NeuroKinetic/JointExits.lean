import NeuroKinetic.RowSatisfaction

open RidgeProjection

namespace NeuroKinetic

variable {K : Type} [Field K] [LinearOrder K]

/-- The bound of the joint's violated limit row, if one is. -/
def limitBound (limits : KinematicLimits K) (q u : Fin DOF → K) (i : Fin DOF) : K :=
  if UpperViolated limits q u i then maxAllowedTorque limits q i else minAllowedTorque limits q i

variable [IsStrictOrderedRing K]

section LimitRows

variable {limits : KinematicLimits K} {q u : Fin DOF → K} {i : Fin DOF}

theorem limitTarget_of_violated
    (order : minAllowedTorque limits q i ≤ maxAllowedTorque limits q i)
    (violated : LimitViolated limits q u i) :
    limitTarget limits q u i = limitBound limits q u i := by
  by_cases upper : UpperViolated limits q u i
  · rw [limitTarget, limitBound, if_pos upper, if_neg (not_both_violated order upper), add_zero,
      if_pos upper]
  · rw [limitTarget, limitBound, if_neg upper, if_pos (violated.resolve_left upper), zero_add,
      if_neg upper]

theorem limitWeight_of_violated
    (order : minAllowedTorque limits q i ≤ maxAllowedTorque limits q i)
    (violated : LimitViolated limits q u i) : limitWeight limits q u i = 1 := by
  by_cases upper : UpperViolated limits q u i
  · rw [limitWeight, if_pos upper, if_neg (not_both_violated order upper), add_zero]
  · rw [limitWeight, if_neg upper, if_pos (violated.resolve_left upper), zero_add]

omit [IsStrictOrderedRing K] in
theorem limitTarget_of_free (free : ¬LimitViolated limits q u i) :
    limitTarget limits q u i = 0 := by
  rw [limitTarget, if_neg fun upper => free (Or.inl upper),
    if_neg fun lower => free (Or.inr lower), add_zero]

omit [IsStrictOrderedRing K] in
theorem limitWeight_of_free (free : ¬LimitViolated limits q u i) :
    limitWeight limits q u i = 0 := by
  rw [limitWeight, if_neg fun upper => free (Or.inl upper),
    if_neg fun lower => free (Or.inr lower), add_zero]

end LimitRows

section Exits

variable [SquareRoot K] {limits : KinematicLimits K} {q u : Fin DOF → K} {i : Fin DOF}
  {eePos : Fin 3 → Ieee K} {obstacles : List (Obstacle K)}

theorem filteredTorque_limit (order : minAllowedTorque limits q i ≤ maxAllowedTorque limits q i)
    (violated : LimitViolated limits q u i) (alone : ¬obstacleActs limits q eePos obstacles u i) :
    filteredTorque limits q eePos obstacles u i =
      stdClamp (ridgeMean 1 (u i) (limitBound limits q u i))
        (-limits.torqueMax i) (limits.torqueMax i) := by
  have some : SomeViolated limits q eePos obstacles u := Or.inl ⟨i, violated⟩
  rw [filteredTorque, if_pos some, jointMean, if_neg alone, if_neg alone,
    limitTarget_of_violated order violated, limitWeight_of_violated order violated, add_zero,
    add_zero, ridgeMean]

theorem filteredTorque_limit_obstacle
    (order : minAllowedTorque limits q i ≤ maxAllowedTorque limits q i)
    (violated : LimitViolated limits q u i) (acts : obstacleActs limits q eePos obstacles u i) :
    filteredTorque limits q eePos obstacles u i =
      stdClamp (ridgeMean 2 (u i) (limitBound limits q u i + obstacleBound limits eePos obstacles))
        (-limits.torqueMax i) (limits.torqueMax i) := by
  have some : SomeViolated limits q eePos obstacles u := Or.inr acts.2.1
  rw [filteredTorque, if_pos some, jointMean, if_pos acts, if_pos acts,
    limitTarget_of_violated order violated, limitWeight_of_violated order violated,
    one_add_one_eq_two, ridgeMean]

omit [IsStrictOrderedRing K] in
theorem filteredTorque_obstacle (free : ¬LimitViolated limits q u i)
    (acts : obstacleActs limits q eePos obstacles u i) :
    filteredTorque limits q eePos obstacles u i =
      stdClamp (ridgeMean 1 (u i) (obstacleBound limits eePos obstacles))
        (-limits.torqueMax i) (limits.torqueMax i) := by
  have some : SomeViolated limits q eePos obstacles u := Or.inr acts.2.1
  rw [filteredTorque, if_pos some, jointMean, if_pos acts, if_pos acts,
    limitTarget_of_free free, limitWeight_of_free free, zero_add, zero_add, ridgeMean]

/-- Once some row is violated, the others' joints are saturated. -/
theorem filteredTorque_saturated (some : SomeViolated limits q eePos obstacles u)
    (free : ¬LimitViolated limits q u i) (alone : ¬obstacleActs limits q eePos obstacles u i) :
    filteredTorque limits q eePos obstacles u i =
      stdClamp (u i) (-limits.torqueMax i) (limits.torqueMax i) := by
  have mean : jointMean limits q eePos obstacles u i = ridgeMean 0 (u i) 0 := by
    rw [jointMean, if_neg alone, if_neg alone, limitTarget_of_free free, limitWeight_of_free free,
      add_zero, ridgeMean, add_zero]
  rw [filteredTorque, if_pos some, mean, ridgeMean_zero]

/-- A joint without a violated row keeps its command, at most saturated. -/
theorem filteredTorque_free (free : ¬LimitViolated limits q u i)
    (alone : ¬obstacleActs limits q eePos obstacles u i) :
    filteredTorque limits q eePos obstacles u i = u i ∨
      filteredTorque limits q eePos obstacles u i =
        stdClamp (u i) (-limits.torqueMax i) (limits.torqueMax i) := by
  by_cases some : SomeViolated limits q eePos obstacles u
  · exact Or.inr (filteredTorque_saturated some free alone)
  · exact Or.inl (if_neg some)

omit [IsStrictOrderedRing K] in
/-- Only an obstacle row that the command violates tells two lists of obstacles apart. -/
theorem filteredTorque_congr {limits' : KinematicLimits K} {eePos' : Fin 3 → Ieee K}
    {obstacles' : List (Obstacle K)} (torque : limits'.torqueMax = limits.torqueMax)
    (low : limits'.qMin = limits.qMin) (high : limits'.qMax = limits.qMax)
    (violated : ObstacleViolated limits' eePos' obstacles' u ↔
      ObstacleViolated limits eePos obstacles u)
    (bound : ObstacleViolated limits eePos obstacles u →
      obstacleBound limits' eePos' obstacles' = obstacleBound limits eePos obstacles) :
    filteredTorque limits' q eePos' obstacles' u = filteredTorque limits q eePos obstacles u := by
  have ceiling : maxAllowedTorque limits' q = maxAllowedTorque limits q := by
    funext j
    simp only [maxAllowedTorque, torque, high]
  have floor : minAllowedTorque limits' q = minAllowedTorque limits q := by
    funext j
    simp only [minAllowedTorque, torque, low]
  have upper : ∀ j, UpperViolated limits' q u j ↔ UpperViolated limits q u j := by
    simp only [UpperViolated, ceiling, implies_true]
  have lower : ∀ j, LowerViolated limits' q u j ↔ LowerViolated limits q u j := by
    simp only [LowerViolated, floor, implies_true]
  have limit : ∀ j, LimitViolated limits' q u j ↔ LimitViolated limits q u j := by
    simp only [LimitViolated, upper, lower, implies_true]
  have target : limitTarget limits' q u = limitTarget limits q u := by
    funext j
    simp only [limitTarget, upper, lower, ceiling, floor]
  have weight : limitWeight limits' q u = limitWeight limits q u := by
    funext j
    simp only [limitWeight, upper, lower]
  funext j
  have some : SomeViolated limits' q eePos' obstacles' u ↔ SomeViolated limits q eePos obstacles u := by
    simp only [SomeViolated, limit, violated]
  have acts : obstacleActs limits' q eePos' obstacles' u j ↔
      obstacleActs limits q eePos obstacles u j := by
    simp only [obstacleActs, ObstacleActive, limit, violated]
  have mean : jointMean limits' q eePos' obstacles' u j = jointMean limits q eePos obstacles u j := by
    by_cases h : obstacleActs limits q eePos obstacles u j
    · simp only [jointMean, target, weight, if_pos h, if_pos (acts.mpr h), bound h.2.1]
    · simp only [jointMean, target, weight, if_neg h, if_neg fun h' => h (acts.mp h')]
  simp only [filteredTorque, some, mean, torque]

omit [IsStrictOrderedRing K] in
/-- An obstacle row that the command keeps is as good as no obstacle. -/
theorem filteredTorque_quiet (quiet : ¬ObstacleViolated limits eePos obstacles u) :
    filteredTorque limits q eePos obstacles u = filteredTorque limits q eePos [] u :=
  filteredTorque_congr rfl rfl rfl (iff_of_false quiet fun h => h.1 rfl) fun h => absurd rfl h.1

end Exits

end NeuroKinetic
