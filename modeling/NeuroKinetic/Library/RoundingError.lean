import Mathlib.Algebra.Order.Ring.Abs
import Mathlib.Tactic.Linarith
import Mathlib.Tactic.NormNum
import Mathlib.Tactic.Ring

/-! Errors of rounded computations, carried from one operation to the next beside a bound on the
size of the exact value. -/

namespace RoundingError

variable {K : Type} [Field K] [LinearOrder K]

/-- The rounding of a floating-point format within its range: it keeps the order and the whole
numbers that the format has, and its error is relative, but for the smallest numbers. -/
structure Rounding (ε : K) (round : K → K) : Prop where
  mono : Monotone round
  whole : ∀ n : ℕ, n ≤ 2 ^ 20 → round n = n
  close : ∀ x, |round x - x| ≤ ε * (1 + |x|)

variable [IsStrictOrderedRing K] {ε : K} {round : K → K}

theorem rounding_id (nonneg : 0 ≤ ε) : Rounding ε (id : K → K) := by
  refine ⟨monotone_id, fun _ _ => rfl, fun x => ?_⟩
  rw [id, sub_self, abs_zero]
  positivity

omit [IsStrictOrderedRing K] in
theorem Rounding.nonneg (h : Rounding ε round) {x : K} (nonneg : 0 ≤ x) : 0 ≤ round x := by
  have zero := h.whole 0 (Nat.zero_le _)
  rw [Nat.cast_zero] at zero
  exact zero.symm.le.trans (h.mono nonneg)

omit [IsStrictOrderedRing K] in
theorem Rounding.le_whole (h : Rounding ε round) {x : K} {n : ℕ} (few : n ≤ 2 ^ 20) (le : x ≤ n) :
    round x ≤ n :=
  (h.mono le).trans_eq (h.whole n few)

/-- Rounding a value that is near an exact one adds the error of one operation. -/
theorem Rounding.near (h : Rounding ε round) (nonneg : 0 ≤ ε) {x y d A : K} (near : |x - y| ≤ d)
    (size : |y| ≤ A) : |round x - y| ≤ d + ε * (1 + A + d) := by
  have large : |x| ≤ A + d := by
    have split := abs_add_le (x - y) y
    rw [sub_add_cancel] at split
    linarith
  have step : |round x - x| ≤ ε * (1 + A + d) :=
    (h.close x).trans (mul_le_mul_of_nonneg_left (by linarith) nonneg)
  have through := abs_sub_le (round x) x y
  linarith

/-- The error of a product of two values with errors of their own. -/
theorem mul_near {x x' y y' d e A B : K} (nearX : |x - x'| ≤ d) (nearY : |y - y'| ≤ e)
    (sizeX : |x'| ≤ A) (sizeY : |y| ≤ B) : |x * y - x' * y'| ≤ d * B + A * e := by
  have apart : x * y - x' * y' = (x - x') * y + x' * (y - y') := by ring
  have first := mul_le_mul nearX sizeY (abs_nonneg y) ((abs_nonneg _).trans nearX)
  have second := mul_le_mul sizeX nearY (abs_nonneg _) ((abs_nonneg _).trans sizeX)
  rw [apart]
  refine (abs_add_le _ _).trans ?_
  rw [abs_mul, abs_mul]
  exact add_le_add first second

theorem add_near {x x' y y' d e : K} (nearX : |x - x'| ≤ d) (nearY : |y - y'| ≤ e) :
    |x + y - (x' + y')| ≤ d + e := by
  rw [add_sub_add_comm]
  exact (abs_add_le _ _).trans (add_le_add nearX nearY)

end RoundingError
