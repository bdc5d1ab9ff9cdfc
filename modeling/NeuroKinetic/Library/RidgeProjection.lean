import Mathlib.Algebra.Order.Field.Basic
import Mathlib.LinearAlgebra.Matrix.Adjugate
import Mathlib.LinearAlgebra.Matrix.ToLinearEquiv
import Mathlib.Data.Matrix.Mul
import Mathlib.Tactic.Linarith
import Mathlib.Tactic.LinearCombination
import Mathlib.Tactic.Ring

open Matrix

namespace RidgeProjection

variable {K : Type} [Field K] [LinearOrder K]

structure PositiveDefinite {k : Nat} (M : Matrix (Fin k) (Fin k) K) : Prop where
  symm : Mᵀ = M
  pos : ∀ x, x ≠ 0 → 0 < x ⬝ᵥ (M *ᵥ x)

/-- A solver that is exact on every positive definite system. -/
class ExactSolver (K : Type) [Field K] [LinearOrder K] where
  solve : {k : Nat} → Matrix (Fin k) (Fin k) K → (Fin k → K) → Fin k → K
  solve_spec : ∀ {k : Nat} (M : Matrix (Fin k) (Fin k) K) (rhs : Fin k → K),
    PositiveDefinite M → M *ᵥ solve M rhs = rhs

theorem PositiveDefinite.mulVec_injective {k : Nat} {M : Matrix (Fin k) (Fin k) K}
    (h : PositiveDefinite M) {x : Fin k → K} (hx : M *ᵥ x = 0) : x = 0 := by
  by_contra hne
  have hp := h.pos x hne
  rw [hx, dotProduct_zero] at hp
  exact lt_irrefl 0 hp

theorem PositiveDefinite.det_ne_zero {k : Nat} {M : Matrix (Fin k) (Fin k) K}
    (h : PositiveDefinite M) : M.det ≠ 0 := by
  intro hd
  obtain ⟨x, hne, hx⟩ := exists_mulVec_eq_zero_iff.mpr hd
  exact hne (h.mulVec_injective hx)

/-- Cramer's rule is one exact solver, over every ordered field. -/
@[reducible] def cramerSolver (K : Type) [Field K] [LinearOrder K] : ExactSolver K where
  solve M rhs := M.det⁻¹ • cramer M rhs
  solve_spec M rhs h := by
    rw [mulVec_smul, mulVec_cramer, smul_smul, inv_mul_cancel₀ h.det_ne_zero, one_smul]

variable {n k : Nat}

def ridgeGram (A : Matrix (Fin k) (Fin n) K) (ridge : K) : Matrix (Fin k) (Fin k) K :=
  A * Aᵀ + ridge • 1

omit [LinearOrder K] in
theorem ridgeGram_mulVec (A : Matrix (Fin k) (Fin n) K) (ridge : K) (x : Fin k → K) :
    ridgeGram A ridge *ᵥ x = A *ᵥ (Aᵀ *ᵥ x) + ridge • x := by
  simp only [ridgeGram, add_mulVec, mulVec_mulVec, smul_mulVec, one_mulVec]

variable [IsStrictOrderedRing K]

theorem ridgeGram_positiveDefinite (A : Matrix (Fin k) (Fin n) K) {ridge : K} (hr : 0 < ridge) :
    PositiveDefinite (ridgeGram A ridge) := by
  constructor
  · simp [ridgeGram, transpose_add, transpose_mul, transpose_smul]
  · intro x hx
    have gram : x ⬝ᵥ (A *ᵥ (Aᵀ *ᵥ x)) = (Aᵀ *ᵥ x) ⬝ᵥ (Aᵀ *ᵥ x) := by
      rw [dotProduct_mulVec, mulVec_transpose]
    have square : 0 ≤ (Aᵀ *ᵥ x) ⬝ᵥ (Aᵀ *ᵥ x) :=
      Finset.sum_nonneg fun i _ => mul_self_nonneg _
    obtain ⟨j, hj⟩ := Function.ne_iff.mp hx
    have positive : 0 < x ⬝ᵥ x :=
      Finset.sum_pos' (fun i _ => mul_self_nonneg _)
        ⟨j, Finset.mem_univ j, mul_self_pos.mpr hj⟩
    rw [ridgeGram_mulVec, dotProduct_add, dotProduct_smul, gram, smul_eq_mul]
    have := mul_pos hr positive
    linarith

/-- Rows that touch one coordinate each: the projection then acts on every
coordinate by itself. -/
def Separable (A : Matrix (Fin k) (Fin n) K) : Prop :=
  ∀ a i j, i ≠ j → A a i * A a j = 0

theorem Separable.row_dotProduct {A : Matrix (Fin k) (Fin n) K} (h : Separable A)
    (a : Fin k) (i : Fin n) (w : Fin n → K) : A a i * (A a ⬝ᵥ w) = A a i * A a i * w i := by
  rw [dotProduct, Finset.mul_sum, Finset.sum_eq_single i]
  · ring
  · intro j _ hj
    rw [← mul_assoc, h a i j (Ne.symm hj), zero_mul]
  · simp

theorem separable_correction {A : Matrix (Fin k) (Fin n) K} (h : Separable A) {ridge : K}
    {u : Fin n → K} {b lambda : Fin k → K}
    (solved : ridgeGram A ridge *ᵥ lambda = A *ᵥ u - b) (i : Fin n) :
    ((∑ a, A a i * A a i) + ridge) * (Aᵀ *ᵥ lambda) i =
      (∑ a, A a i * A a i) * u i - ∑ a, A a i * b a := by
  have row : ∀ a, A a ⬝ᵥ (Aᵀ *ᵥ lambda) + ridge * lambda a = A a ⬝ᵥ u - b a := by
    intro a
    rw [ridgeGram_mulVec] at solved
    exact congrFun solved a
  have weighted : ∀ a, A a i * A a i * (Aᵀ *ᵥ lambda) i + ridge * (A a i * lambda a) =
      A a i * A a i * u i - A a i * b a := by
    intro a
    rw [← h.row_dotProduct a i (Aᵀ *ᵥ lambda), ← h.row_dotProduct a i u]
    linear_combination A a i * row a
  have total : (Aᵀ *ᵥ lambda) i = ∑ a, A a i * lambda a := by
    simp [mulVec, dotProduct, transpose_apply]
  have summed := Finset.sum_congr (rfl : (Finset.univ : Finset (Fin k)) = Finset.univ)
    (fun a _ => weighted a)
  rw [Finset.sum_add_distrib, Finset.sum_sub_distrib, ← Finset.sum_mul, ← Finset.sum_mul,
    ← Finset.mul_sum, ← total] at summed
  rw [add_mul]
  exact summed

/-- The projected coordinate is the ridge-weighted mean of the command and of
the bounds whose rows act on it. -/
theorem separable_projection {A : Matrix (Fin k) (Fin n) K} (h : Separable A) {ridge : K}
    (hr : 0 < ridge) {u : Fin n → K} {b lambda : Fin k → K}
    (solved : ridgeGram A ridge *ᵥ lambda = A *ᵥ u - b) (i : Fin n) :
    (u - Aᵀ *ᵥ lambda) i =
      (ridge * u i + ∑ a, A a i * b a) / ((∑ a, A a i * A a i) + ridge) := by
  have weight : 0 < (∑ a, A a i * A a i) + ridge :=
    add_pos_of_nonneg_of_pos (Finset.sum_nonneg fun a _ => mul_self_nonneg _) hr
  have corrected := separable_correction h solved i
  rw [Pi.sub_apply, eq_div_iff weight.ne']
  linear_combination -corrected

end RidgeProjection
