import NeuroKinetic.TorqueBounds
import Mathlib.Algebra.BigOperators.Fin

open Matrix RidgeProjection

namespace NeuroKinetic

variable {K : Type} [Field K] [LinearOrder K]

/-- The test that puts a row into the active set. -/
def ConstraintRow.Violated (r : ConstraintRow K) (u : Fin DOF → K) : Prop :=
  1e-4 < r.violation u

instance (r : ConstraintRow K) (u : Fin DOF → K) : Decidable (r.Violated u) :=
  inferInstanceAs (Decidable (_ < _))

def ConstraintRow.SingleJoint (r : ConstraintRow K) : Prop :=
  ∀ i j, i ≠ j → r.coef i * r.coef j = 0

/-- The loop with its early stop keeps the first violated rows, up to one for
each joint. -/
theorem activeRows_eq (u : Fin DOF → K) (rows active : List (ConstraintRow K))
    (room : active.length < DOF) :
    activeRows u rows active =
      active ++ (rows.filter (·.Violated u)).take (DOF - active.length) := by
  induction rows generalizing active with
  | nil => simp [activeRows]
  | cons r rest ih =>
    simp only [activeRows]
    by_cases hv : r.Violated u
    · rw [if_pos (show 1e-4 < r.violation u from hv), List.filter_cons_of_pos (by simpa using hv)]
      obtain ⟨left, hleft⟩ : ∃ left, DOF - active.length = left + 1 :=
        ⟨DOF - active.length - 1, by omega⟩
      split
      next full =>
        have : left = 0 := by simp only [List.length_append, List.length_singleton] at full; omega
        subst this
        simp [hleft]
      next notFull =>
        rw [ih _ (by omega), hleft]
        have : DOF - (active ++ [r]).length = left := by simp; omega
        rw [this]
        simp
    · rw [if_neg (show ¬1e-4 < r.violation u from hv), List.filter_cons_of_neg (by simpa using hv)]
      exact ih active room

omit [LinearOrder K] in
theorem single_singleJoint (i : Fin DOF) (c b : K) :
    ConstraintRow.SingleJoint ⟨Pi.single i c, b⟩ := by
  intro j k hjk
  by_cases hj : j = i
  · subst hj
    simp [Ne.symm hjk]
  · simp [hj]

theorem obstacleRow_singleJoint [SquareRoot K] (limits : KinematicLimits K)
    (eePos : Fin 3 → Ieee K) (obstacles : List (Obstacle K)) :
    (obstacleRow limits eePos obstacles).SingleJoint := by
  cases obstacles with
  | nil => intro i j _; simp [obstacleRow]
  | cons obs rest => exact single_singleJoint 5 _ _

theorem constraintRows_singleJoint [SquareRoot K] {limits : KinematicLimits K}
    {q : Fin DOF → K} {eePos : Fin 3 → Ieee K} {obstacles : List (Obstacle K)}
    {r : ConstraintRow K} (h : r ∈ constraintRows limits q eePos obstacles) : r.SingleJoint := by
  rcases List.mem_append.mp h with h | h
  · obtain ⟨i, _, hi⟩ := List.mem_flatMap.mp h
    rcases List.mem_cons.mp hi with rfl | hi
    · exact single_singleJoint i _ _
    · obtain rfl := List.mem_singleton.mp hi
      exact single_singleJoint i _ _
  · obtain rfl := List.mem_singleton.mp h
    exact obstacleRow_singleJoint limits eePos obstacles

/-- Number of active rows on a joint. -/
def rowWeight (active : List (ConstraintRow K)) (i : Fin DOF) : K :=
  (active.map (fun r => r.coef i * r.coef i)).sum

def rowTarget (active : List (ConstraintRow K)) (i : Fin DOF) : K :=
  (active.map (fun r => r.coef i * r.bound)).sum

theorem projectActive_apply [IsStrictOrderedRing K] [ExactSolver K] (u : Fin DOF → K)
    {active : List (ConstraintRow K)} (single : ∀ r ∈ active, r.SingleJoint) (i : Fin DOF) :
    projectActive u active i =
      (1e-6 * u i + rowTarget active i) / (rowWeight active i + 1e-6) := by
  have separable : Separable (activeMatrix active) :=
    fun a => single _ (List.get_mem active a)
  have ridge : (0 : K) < 1e-6 := by norm_num
  have solved := ExactSolver.solve_spec (ridgeGram (activeMatrix active) 1e-6)
    (activeMatrix active *ᵥ u - activeBound active) (ridgeGram_positiveDefinite _ ridge)
  have target : ∑ a, activeMatrix active a i * activeBound active a = rowTarget active i := by
    simp [activeMatrix, activeBound, rowTarget, ← Fin.sum_univ_fun_getElem]
  have weight : ∑ a, activeMatrix active a i * activeMatrix active a i = rowWeight active i := by
    simp [activeMatrix, rowWeight, ← Fin.sum_univ_fun_getElem]
  rw [← target, ← weight]
  exact separable_projection separable ridge solved i

end NeuroKinetic
