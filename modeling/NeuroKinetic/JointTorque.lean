import NeuroKinetic.ActiveSet

open Matrix RidgeProjection

namespace NeuroKinetic

variable {K : Type} [Field K] [LinearOrder K]

def UpperViolated (limits : KinematicLimits K) (q u : Fin DOF → K) (i : Fin DOF) : Prop :=
  maxAllowedTorque limits q i + 1e-4 < u i

def LowerViolated (limits : KinematicLimits K) (q u : Fin DOF → K) (i : Fin DOF) : Prop :=
  u i < minAllowedTorque limits q i - 1e-4

def LimitViolated (limits : KinematicLimits K) (q u : Fin DOF → K) (i : Fin DOF) : Prop :=
  UpperViolated limits q u i ∨ LowerViolated limits q u i

instance (limits : KinematicLimits K) (q u : Fin DOF → K) (i : Fin DOF) :
    Decidable (UpperViolated limits q u i) := inferInstanceAs (Decidable (_ < _))

instance (limits : KinematicLimits K) (q u : Fin DOF → K) (i : Fin DOF) :
    Decidable (LowerViolated limits q u i) := inferInstanceAs (Decidable (_ < _))

instance (limits : KinematicLimits K) (q u : Fin DOF → K) (i : Fin DOF) :
    Decidable (LimitViolated limits q u i) := inferInstanceAs (Decidable (_ ∨ _))

section Obstacles

variable [SquareRoot K]

/-- The bound in the last row; without obstacles the row is `0 ≥ 0`. -/
def obstacleBound (limits : KinematicLimits K) (eePos : Fin 3 → Ieee K) : List (Obstacle K) → K
  | [] => 0
  | obs :: _ => obstacleTorqueBound limits eePos obs

def ObstacleViolated (limits : KinematicLimits K) (eePos : Fin 3 → Ieee K)
    (obstacles : List (Obstacle K)) (u : Fin DOF → K) : Prop :=
  obstacles ≠ [] ∧ obstacleBound limits eePos obstacles + 1e-4 < u 5

instance (limits : KinematicLimits K) (eePos : Fin 3 → Ieee K) (obstacles : List (Obstacle K))
    (u : Fin DOF → K) : Decidable (ObstacleViolated limits eePos obstacles u) :=
  haveI : Decidable (obstacles ≠ []) := match obstacles with
    | [] => isFalse (fun h => h rfl)
    | _ :: _ => isTrue (List.cons_ne_nil _ _)
  inferInstanceAs (Decidable (_ ∧ _))

end Obstacles

variable [IsStrictOrderedRing K]

section Bounds

variable {limits : KinematicLimits K} {q u : Fin DOF → K} {i : Fin DOF}

theorem UpperViolated.ceiling_le (h : UpperViolated limits q u i) :
    maxAllowedTorque limits q i ≤ u i :=
  le_of_add_le_of_nonneg_left (le_of_lt h) (by norm_num)

theorem LowerViolated.le_floor (h : LowerViolated limits q u i) :
    u i ≤ minAllowedTorque limits q i :=
  (le_of_lt h).trans (sub_le_self _ (by norm_num))

theorem ObstacleViolated.bound_le [SquareRoot K] {eePos : Fin 3 → Ieee K}
    {obstacles : List (Obstacle K)} (h : ObstacleViolated limits eePos obstacles u) :
    obstacleBound limits eePos obstacles ≤ u 5 :=
  le_of_add_le_of_nonneg_left (le_of_lt h.2) (by norm_num)

end Bounds

theorem upperRow_violated {limits : KinematicLimits K} {q u : Fin DOF → K} {i : Fin DOF} :
    (upperRow limits q i).Violated u ↔ UpperViolated limits q u i := by
  simp only [ConstraintRow.Violated, ConstraintRow.violation, upperRow, single_dotProduct,
    UpperViolated]
  constructor <;> intro h <;> linarith

theorem lowerRow_violated {limits : KinematicLimits K} {q u : Fin DOF → K} {i : Fin DOF} :
    (lowerRow limits q i).Violated u ↔ LowerViolated limits q u i := by
  simp only [ConstraintRow.Violated, ConstraintRow.violation, lowerRow, single_dotProduct,
    LowerViolated]
  constructor <;> intro h <;> linarith

theorem obstacleRow_violated [SquareRoot K] {limits : KinematicLimits K}
    {eePos : Fin 3 → Ieee K} {obstacles : List (Obstacle K)} {u : Fin DOF → K} :
    (obstacleRow limits eePos obstacles).Violated u ↔
      ObstacleViolated limits eePos obstacles u := by
  cases obstacles with
  | nil =>
    have : ¬(1e-4 : K) < 0 := by norm_num
    simp [ConstraintRow.Violated, ConstraintRow.violation, obstacleRow, ObstacleViolated, this]
  | cons obs rest =>
    simp only [ConstraintRow.Violated, ConstraintRow.violation, obstacleRow, single_dotProduct,
      ObstacleViolated, obstacleBound, ne_eq, reduceCtorEq, not_false_eq_true, true_and]
    constructor <;> intro h <;> linarith

def violatedLimitRows (limits : KinematicLimits K) (q u : Fin DOF → K) : List (ConstraintRow K) :=
  (List.finRange DOF).flatMap fun i =>
    [upperRow limits q i, lowerRow limits q i].filter (·.Violated u)

theorem limit_pair_filter {limits : KinematicLimits K} {q u : Fin DOF → K} {i : Fin DOF} :
    [upperRow limits q i, lowerRow limits q i].filter (·.Violated u) =
      (if UpperViolated limits q u i then [upperRow limits q i] else []) ++
        (if LowerViolated limits q u i then [lowerRow limits q i] else []) := by
  by_cases hu : UpperViolated limits q u i <;> by_cases hl : LowerViolated limits q u i <;>
    simp [upperRow_violated, lowerRow_violated, hu, hl]

theorem constraintRows_filter [SquareRoot K] (limits : KinematicLimits K) (q : Fin DOF → K)
    (eePos : Fin 3 → Ieee K) (obstacles : List (Obstacle K)) (u : Fin DOF → K) :
    (constraintRows limits q eePos obstacles).filter (·.Violated u) =
      violatedLimitRows limits q u ++
        (if ObstacleViolated limits eePos obstacles u then [obstacleRow limits eePos obstacles]
          else []) := by
  rw [constraintRows, List.filter_append, List.filter_flatMap]
  congr 1
  by_cases h : ObstacleViolated limits eePos obstacles u <;>
    simp [obstacleRow_violated, h]

theorem not_both_violated {limits : KinematicLimits K} {q u : Fin DOF → K} {i : Fin DOF}
    (order : minAllowedTorque limits q i ≤ maxAllowedTorque limits q i)
    (hu : UpperViolated limits q u i) : ¬LowerViolated limits q u i := by
  intro hl
  simp only [UpperViolated, LowerViolated] at hu hl
  have : (0 : K) < 1e-4 := by norm_num
  linarith

theorem violatedLimitRows_length {limits : KinematicLimits K} {q u : Fin DOF → K}
    (order : ∀ i, minAllowedTorque limits q i ≤ maxAllowedTorque limits q i) :
    (violatedLimitRows limits q u).length = ∑ i, if LimitViolated limits q u i then 1 else 0 := by
  rw [violatedLimitRows, List.length_flatMap, Fin.sum_univ_def]
  congr 1
  apply List.map_congr_left
  intro i _
  rw [limit_pair_filter]
  by_cases hu : UpperViolated limits q u i
  · simp [hu, not_both_violated (order i) hu, LimitViolated]
  · by_cases hl : LowerViolated limits q u i <;> simp [hu, hl, LimitViolated]

theorem violatedLimitRows_length_le {limits : KinematicLimits K} {q u : Fin DOF → K}
    (order : ∀ i, minAllowedTorque limits q i ≤ maxAllowedTorque limits q i) :
    (violatedLimitRows limits q u).length ≤ DOF := by
  rw [violatedLimitRows_length order]
  have bound := Finset.sum_le_card_nsmul Finset.univ
    (fun i => if LimitViolated limits q u i then 1 else 0) 1 (fun i _ => by split <;> simp)
  simpa using bound

theorem violatedLimitRows_full {limits : KinematicLimits K} {q u : Fin DOF → K}
    (order : ∀ i, minAllowedTorque limits q i ≤ maxAllowedTorque limits q i) :
    (violatedLimitRows limits q u).length = DOF ↔ ∀ i, LimitViolated limits q u i := by
  rw [violatedLimitRows_length order]
  constructor
  · intro full i
    by_contra hi
    have fewer : ∑ j, (if LimitViolated limits q u j then 1 else 0) < ∑ _j : Fin DOF, 1 := by
      apply Finset.sum_lt_sum (fun j _ => by split <;> simp)
      exact ⟨i, Finset.mem_univ i, by simp [hi]⟩
    rw [full] at fewer
    simp at fewer
  · intro all
    simp [all]

/-- The obstacle row comes last, so it is cut off when all seven joints violate
a limit of their own. -/
def ObstacleActive [SquareRoot K] (limits : KinematicLimits K) (q : Fin DOF → K)
    (eePos : Fin 3 → Ieee K) (obstacles : List (Obstacle K)) (u : Fin DOF → K) : Prop :=
  ObstacleViolated limits eePos obstacles u ∧ ¬∀ i, LimitViolated limits q u i

instance [SquareRoot K] (limits : KinematicLimits K) (q : Fin DOF → K)
    (eePos : Fin 3 → Ieee K) (obstacles : List (Obstacle K)) (u : Fin DOF → K) :
    Decidable (ObstacleActive limits q eePos obstacles u) :=
  inferInstanceAs (Decidable (_ ∧ _))

theorem activeRows_constraintRows [SquareRoot K] {limits : KinematicLimits K} {q u : Fin DOF → K}
    (order : ∀ i, minAllowedTorque limits q i ≤ maxAllowedTorque limits q i)
    (eePos : Fin 3 → Ieee K) (obstacles : List (Obstacle K)) :
    activeRows u (constraintRows limits q eePos obstacles) [] =
      violatedLimitRows limits q u ++
        (if ObstacleActive limits q eePos obstacles u then [obstacleRow limits eePos obstacles]
          else []) := by
  have bound := violatedLimitRows_length_le (u := u) order
  rw [activeRows_eq u _ [] (by simp), constraintRows_filter, List.nil_append, List.length_nil,
    Nat.sub_zero]
  by_cases full : ∀ i, LimitViolated limits q u i
  · have length := (violatedLimitRows_full order).mpr full
    simp only [ObstacleActive, full, implies_true, not_true_eq_false, and_false, if_false,
      List.append_nil]
    exact List.take_left' length
  · have length : (violatedLimitRows limits q u).length ≠ DOF :=
      fun h => full ((violatedLimitRows_full order).mp h)
    simp only [ObstacleActive, full, not_false_eq_true, and_true]
    apply List.take_of_length_le
    split <;> simp <;> omega

end NeuroKinetic
