import NeuroKinetic.ActiveSet

open Matrix RidgeProjection

namespace NeuroKinetic

variable {K : Type} [Field K] [LinearOrder K]

theorem activeRows_isEmpty_iff (u : Fin DOF → K) (rows : List (ConstraintRow K)) :
    (activeRows u rows []).isEmpty = rows.all (fun r => decide (r.violation u ≤ 1e-4)) := by
  rw [activeRows_eq u rows [] (by simp), List.nil_append, List.length_nil, Nat.sub_zero,
    Bool.eq_iff_iff, List.isEmpty_iff, List.take_eq_nil_iff, List.filter_eq_nil_iff,
    List.all_eq_true]
  have quiet : ∀ r : ConstraintRow K, ¬r.Violated u ↔ r.violation u ≤ 1e-4 := fun _ => not_lt
  simp [quiet]

theorem mem_of_mem_activeRows {u : Fin DOF → K} {rows : List (ConstraintRow K)}
    {r : ConstraintRow K} (h : r ∈ activeRows u rows []) : r ∈ rows := by
  rw [activeRows_eq u rows [] (by simp), List.nil_append] at h
  exact List.mem_of_mem_filter (List.mem_of_mem_take h)

section Solve

variable [ExactSolver K]

/-- The solver's two exits: a command that every row accepts goes out as it came,
and only the projection is saturated. -/
def solvedTorque (limits : KinematicLimits K) (u : Fin DOF → K) (rows : List (ConstraintRow K)) :
    Fin DOF → K :=
  if rows.all (fun r => decide (r.violation u ≤ 1e-4)) then u
  else saturate limits (projectActive u (activeRows u rows []))

/-- The solver answers on every system of rows. -/
theorem solveActiveSetQp_eq_solvedTorque (limits : KinematicLimits K) (u : Fin DOF → K)
    (rows : List (ConstraintRow K)) :
    solveActiveSetQp limits u rows = some (solvedTorque limits u rows) := by
  cases rows with
  | nil => rfl
  | cons first rest =>
    simp only [solveActiveSetQp, solvedTorque, activeRows_isEmpty_iff, List.isEmpty_cons,
      Bool.false_eq_true, if_false]
    split
    next => rfl
    next => rfl

end Solve

section Filter

variable [SquareRoot K]

/-- The flag: the torque moved by more than 0.01. -/
def intervened (safe nominal : Fin DOF → K) : Bool :=
  decide (1e-2 < SquareRoot.sqrt ((safe - nominal) ⬝ᵥ (safe - nominal)))

section Flag

variable [IsStrictOrderedRing K] [LawfulSquareRoot K]

theorem intervened_iff (safe nominal : Fin DOF → K) :
    intervened safe nominal = true ↔ 1e-4 < (safe - nominal) ⬝ᵥ (safe - nominal) := by
  have square : (1e-2 : K) * 1e-2 = 1e-4 := by norm_num
  have nonneg : 0 ≤ (safe - nominal) ⬝ᵥ (safe - nominal) :=
    Finset.sum_nonneg fun i _ => mul_self_nonneg _
  rw [intervened, decide_eq_true_iff, LawfulSquareRoot.lt_sqrt_iff nonneg (by norm_num), square]

theorem intervened_self (u : Fin DOF → K) : intervened u u = false := by
  rw [Bool.eq_false_iff, ne_eq, intervened_iff, sub_self, dotProduct_zero]
  norm_num

end Flag

variable [ExactSolver K]

/-- Over finite joint data the filter answers, whatever its limits are. -/
theorem filterTorques_solved (limits : KinematicLimits K) (q qDot u : Fin DOF → K)
    (eePos : Fin 3 → Ieee K) (obstacles : List (Obstacle K)) :
    filterTorques limits ⟨fun i => .fin (q i), fun i => .fin (qDot i), eePos⟩
        (fun i => .fin (u i)) obstacles =
      .ok ⟨fun i => .fin (solvedTorque limits u (constraintRows limits q eePos obstacles) i),
        intervened (solvedTorque limits u (constraintRows limits q eePos obstacles)) u,
        minMargin limits eePos obstacles⟩ := by
  simp only [filterTorques, Ieee.allFinite?_fin, solveActiveSetQp_eq_solvedTorque]
  rfl

theorem filterTorques_invalid (limits : KinematicLimits K) {state : ManipulatorState K}
    {nominal : Fin DOF → Ieee K} (obstacles : List (Obstacle K))
    (h : Ieee.allFinite? state.q = none ∨ Ieee.allFinite? state.qDot = none ∨
      Ieee.allFinite? nominal = none) :
    filterTorques limits state nominal obstacles = .error .invalidState := by
  unfold filterTorques
  split
  next position velocity command =>
    rw [position, velocity, command] at h
    simp at h
  next => rfl

end Filter

end NeuroKinetic
