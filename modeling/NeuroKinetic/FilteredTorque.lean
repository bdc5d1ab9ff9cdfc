import NeuroKinetic.JointTorque
import NeuroKinetic.SolverExits

open Matrix RidgeProjection

namespace NeuroKinetic

variable {K : Type} [Field K]

theorem sum_flatMap_single (f : Fin DOF → List (ConstraintRow K)) (g : ConstraintRow K → K)
    (i : Fin DOF) (h : ∀ j, j ≠ i → ∀ r ∈ f j, g r = 0) :
    (((List.finRange DOF).flatMap f).map g).sum = ((f i).map g).sum := by
  have zero : ∀ j, j ≠ i → ((f j).map g).sum = 0 := by
    intro j hj
    apply List.sum_eq_zero
    intro x hx
    obtain ⟨r, hr, rfl⟩ := List.mem_map.mp hx
    exact h j hj r hr
  rw [List.map_flatMap, List.flatMap, List.sum_flatten, List.map_map, ← Fin.sum_univ_def]
  exact Finset.sum_eq_single i (fun j _ hj => zero j hj) (by simp)

theorem rowTarget_append (xs ys : List (ConstraintRow K)) (i : Fin DOF) :
    rowTarget (xs ++ ys) i = rowTarget xs i + rowTarget ys i := by
  simp [rowTarget]

theorem rowWeight_append (xs ys : List (ConstraintRow K)) (i : Fin DOF) :
    rowWeight (xs ++ ys) i = rowWeight xs i + rowWeight ys i := by
  simp [rowWeight]

variable [LinearOrder K]

theorem limit_pair_coef {limits : KinematicLimits K} {q u : Fin DOF → K} {i j : Fin DOF}
    (hj : j ≠ i) {r : ConstraintRow K}
    (h : r ∈ [upperRow limits q j, lowerRow limits q j].filter (·.Violated u)) : r.coef i = 0 := by
  rcases List.mem_cons.mp (List.mem_of_mem_filter h) with rfl | h
  · simp [upperRow, Ne.symm hj]
  · obtain rfl := List.mem_singleton.mp h
    simp [lowerRow, Ne.symm hj]

/-- The bounds of the joint's own violated limit rows, added up. -/
def limitTarget (limits : KinematicLimits K) (q u : Fin DOF → K) (i : Fin DOF) : K :=
  (if UpperViolated limits q u i then maxAllowedTorque limits q i else 0) +
    (if LowerViolated limits q u i then minAllowedTorque limits q i else 0)

def limitWeight (limits : KinematicLimits K) (q u : Fin DOF → K) (i : Fin DOF) : K :=
  (if UpperViolated limits q u i then 1 else 0) + (if LowerViolated limits q u i then 1 else 0)

section LimitRows

variable [IsStrictOrderedRing K]

theorem violatedLimitRows_target (limits : KinematicLimits K) (q u : Fin DOF → K) (i : Fin DOF) :
    rowTarget (violatedLimitRows limits q u) i = limitTarget limits q u i := by
  rw [rowTarget, violatedLimitRows, sum_flatMap_single _ _ i
    (fun j hj r hr => by rw [limit_pair_coef hj hr, zero_mul]), limit_pair_filter, limitTarget]
  by_cases hu : UpperViolated limits q u i <;> by_cases hl : LowerViolated limits q u i <;>
    simp [hu, hl, upperRow, lowerRow]

theorem violatedLimitRows_weight (limits : KinematicLimits K) (q u : Fin DOF → K) (i : Fin DOF) :
    rowWeight (violatedLimitRows limits q u) i = limitWeight limits q u i := by
  rw [rowWeight, violatedLimitRows, sum_flatMap_single _ _ i
    (fun j hj r hr => by rw [limit_pair_coef hj hr, zero_mul]), limit_pair_filter, limitWeight]
  by_cases hu : UpperViolated limits q u i <;> by_cases hl : LowerViolated limits q u i <;>
    simp [hu, hl, upperRow, lowerRow]

end LimitRows

section Filter

variable [SquareRoot K]

/-- The obstacle row acts on joint 5 only, and only while it is in the active set. -/
def obstacleActs (limits : KinematicLimits K) (q : Fin DOF → K) (eePos : Fin 3 → Ieee K)
    (obstacles : List (Obstacle K)) (u : Fin DOF → K) (i : Fin DOF) : Prop :=
  i = 5 ∧ ObstacleActive limits q eePos obstacles u

instance (limits : KinematicLimits K) (q : Fin DOF → K) (eePos : Fin 3 → Ieee K)
    (obstacles : List (Obstacle K)) (u : Fin DOF → K) (i : Fin DOF) :
    Decidable (obstacleActs limits q eePos obstacles u i) :=
  inferInstanceAs (Decidable (_ ∧ _))

theorem obstacleRow_target {limits : KinematicLimits K} {q : Fin DOF → K}
    {eePos : Fin 3 → Ieee K} {obstacles : List (Obstacle K)} {u : Fin DOF → K} (i : Fin DOF) :
    rowTarget (if ObstacleActive limits q eePos obstacles u then
        [obstacleRow limits eePos obstacles] else []) i =
      if obstacleActs limits q eePos obstacles u i then
        obstacleBound limits eePos obstacles else 0 := by
  by_cases active : ObstacleActive limits q eePos obstacles u
  · obtain ⟨obs, rest, rfl⟩ := List.exists_cons_of_ne_nil active.1.1
    by_cases hi : i = 5
    · subst hi
      simp [rowTarget, obstacleActs, active, obstacleRow, obstacleBound]
    · simp [rowTarget, obstacleActs, active, obstacleRow, hi]
  · simp [rowTarget, obstacleActs, active]

theorem obstacleRow_weight {limits : KinematicLimits K} {q : Fin DOF → K}
    {eePos : Fin 3 → Ieee K} {obstacles : List (Obstacle K)} {u : Fin DOF → K} (i : Fin DOF) :
    rowWeight (if ObstacleActive limits q eePos obstacles u then
        [obstacleRow limits eePos obstacles] else []) i =
      if obstacleActs limits q eePos obstacles u i then 1 else 0 := by
  by_cases active : ObstacleActive limits q eePos obstacles u
  · obtain ⟨obs, rest, rfl⟩ := List.exists_cons_of_ne_nil active.1.1
    by_cases hi : i = 5
    · subst hi
      simp [rowWeight, obstacleActs, active, obstacleRow]
    · simp [rowWeight, obstacleActs, active, obstacleRow, hi]
  · simp [rowWeight, obstacleActs, active]

/-- The mean of the command (with the ridge as its weight) and of the bounds
of the active rows on the joint. -/
def jointMean (limits : KinematicLimits K) (q : Fin DOF → K) (eePos : Fin 3 → Ieee K)
    (obstacles : List (Obstacle K)) (u : Fin DOF → K) (i : Fin DOF) : K :=
  (1e-6 * u i + (limitTarget limits q u i +
      if obstacleActs limits q eePos obstacles u i then
        obstacleBound limits eePos obstacles else 0)) /
    (limitWeight limits q u i +
      (if obstacleActs limits q eePos obstacles u i then 1 else 0) + 1e-6)

def SomeViolated (limits : KinematicLimits K) (q : Fin DOF → K) (eePos : Fin 3 → Ieee K)
    (obstacles : List (Obstacle K)) (u : Fin DOF → K) : Prop :=
  (∃ i, LimitViolated limits q u i) ∨ ObstacleViolated limits eePos obstacles u

instance (limits : KinematicLimits K) (q : Fin DOF → K) (eePos : Fin 3 → Ieee K)
    (obstacles : List (Obstacle K)) (u : Fin DOF → K) :
    Decidable (SomeViolated limits q eePos obstacles u) :=
  inferInstanceAs (Decidable (_ ∨ _))

/-- What the filter is for, joint by joint: pass a command that every row accepts,
else replace it by the saturated mean. -/
def filteredTorque (limits : KinematicLimits K) (q : Fin DOF → K) (eePos : Fin 3 → Ieee K)
    (obstacles : List (Obstacle K)) (u : Fin DOF → K) (i : Fin DOF) : K :=
  if SomeViolated limits q eePos obstacles u then
    stdClamp (jointMean limits q eePos obstacles u i) (-limits.torqueMax i) (limits.torqueMax i)
  else u i

variable [IsStrictOrderedRing K]

theorem someViolated_iff_rows {limits : KinematicLimits K} {q : Fin DOF → K}
    {eePos : Fin 3 → Ieee K} {obstacles : List (Obstacle K)} {u : Fin DOF → K} :
    (constraintRows limits q eePos obstacles).all (fun r => decide (r.violation u ≤ 1e-4)) = false ↔
      SomeViolated limits q eePos obstacles u := by
  have rows : (∃ r ∈ constraintRows limits q eePos obstacles, r.Violated u) ↔
      SomeViolated limits q eePos obstacles u := by
    constructor
    · rintro ⟨r, hr, hv⟩
      rcases List.mem_append.mp hr with hr | hr
      · obtain ⟨i, _, hi⟩ := List.mem_flatMap.mp hr
        rcases List.mem_cons.mp hi with rfl | hi
        · exact Or.inl ⟨i, Or.inl (upperRow_violated.mp hv)⟩
        · obtain rfl := List.mem_singleton.mp hi
          exact Or.inl ⟨i, Or.inr (lowerRow_violated.mp hv)⟩
      · obtain rfl := List.mem_singleton.mp hr
        exact Or.inr (obstacleRow_violated.mp hv)
    · rintro (⟨i, hu | hl⟩ | ho)
      · exact ⟨_, List.mem_append_left _ (List.mem_flatMap.mpr ⟨i, List.mem_finRange i, by simp⟩),
          upperRow_violated.mpr hu⟩
      · exact ⟨_, List.mem_append_left _ (List.mem_flatMap.mpr ⟨i, List.mem_finRange i, by simp⟩),
          lowerRow_violated.mpr hl⟩
      · exact ⟨_, List.mem_append_right _ (List.mem_singleton_self _), obstacleRow_violated.mpr ho⟩
  rw [← rows, List.all_eq_false]
  simp [ConstraintRow.Violated]

variable [ExactSolver K]

/-- The active-set solve over the filter's rows computes `filteredTorque`. -/
theorem solvedTorque_constraintRows {limits : KinematicLimits K} {q : Fin DOF → K}
    (order : ∀ i, minAllowedTorque limits q i ≤ maxAllowedTorque limits q i)
    (eePos : Fin 3 → Ieee K) (obstacles : List (Obstacle K)) (u : Fin DOF → K) :
    solvedTorque limits u (constraintRows limits q eePos obstacles) =
      filteredTorque limits q eePos obstacles u := by
  have single : ∀ r ∈ activeRows u (constraintRows limits q eePos obstacles) [], r.SingleJoint :=
    fun r hr => constraintRows_singleJoint (mem_of_mem_activeRows hr)
  funext i
  by_cases some : SomeViolated limits q eePos obstacles u
  · simp only [solvedTorque, someViolated_iff_rows.mpr some, Bool.false_eq_true, if_false,
      filteredTorque, if_pos some, saturate]
    rw [projectActive_apply u single, activeRows_constraintRows order, rowTarget_append,
      rowWeight_append, violatedLimitRows_target, violatedLimitRows_weight, obstacleRow_target,
      obstacleRow_weight]
    rfl
  · have all : (constraintRows limits q eePos obstacles).all
        (fun r => decide (r.violation u ≤ 1e-4)) = true := by
      by_contra h
      exact some (someViolated_iff_rows.mp (Bool.eq_false_iff.mpr h))
    simp only [solvedTorque, all, if_true, filteredTorque, if_neg some]

theorem filterTorques_flagged {limits : KinematicLimits K} {q : Fin DOF → K}
    (order : ∀ i, minAllowedTorque limits q i ≤ maxAllowedTorque limits q i)
    (qDot nominal : Fin DOF → K) (eePos : Fin 3 → Ieee K) (obstacles : List (Obstacle K)) :
    filterTorques limits ⟨fun i => .fin (q i), fun i => .fin (qDot i), eePos⟩
        (fun i => .fin (nominal i)) obstacles =
      .ok ⟨fun i => .fin (filteredTorque limits q eePos obstacles nominal i),
        intervened (filteredTorque limits q eePos obstacles nominal) nominal,
        minMargin limits eePos obstacles⟩ := by
  rw [filterTorques_solved, solvedTorque_constraintRows order]

theorem filterTorques_eq {limits : KinematicLimits K} {q : Fin DOF → K}
    (order : ∀ i, minAllowedTorque limits q i ≤ maxAllowedTorque limits q i)
    (qDot nominal : Fin DOF → K) (eePos : Fin 3 → Ieee K) (obstacles : List (Obstacle K)) :
    ∃ intervened, filterTorques limits ⟨fun i => .fin (q i), fun i => .fin (qDot i), eePos⟩
        (fun i => .fin (nominal i)) obstacles =
      .ok ⟨fun i => .fin (filteredTorque limits q eePos obstacles nominal i), intervened,
        minMargin limits eePos obstacles⟩ :=
  ⟨_, filterTorques_flagged order qDot nominal eePos obstacles⟩

end Filter

end NeuroKinetic
