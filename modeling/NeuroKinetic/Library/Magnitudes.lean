import Mathlib.Algebra.Order.Ring.Abs
import Mathlib.Tactic.Linarith
import Mathlib.Tactic.Ring
import NeuroKinetic.Library.Ieee

/-! Sizes of floating-point numbers, up to powers of two, through operations that round. -/

namespace Ieee

variable {K : Type} [Field K] [LinearOrder K]

/-- A number of at most that many binary digits before its point. -/
def Within (e : ℕ) (x : Ieee K) : Prop := ∃ y, x = fin y ∧ |y| ≤ 2 ^ e

/-- The rounding of a format whose powers of two go up to that one: none is exceeded by
what is rounded below it. -/
def Rounds (top : ℕ) (round : Ieee K → Ieee K) : Prop :=
  ∀ e ≤ top, ∀ x, Within e x → Within e (round x)

theorem rounds_id (top : ℕ) : Rounds top (id : Ieee K → Ieee K) := fun _ _ _ h => h

variable [IsStrictOrderedRing K] {a b : Ieee K} {e f : ℕ}

theorem Within.mono (h : Within e a) (order : e ≤ f) : Within f a := by
  obtain ⟨x, rfl, size⟩ := h
  exact ⟨x, rfl, size.trans (pow_le_pow_right₀ one_le_two order)⟩

theorem Within.add (ha : Within e a) (hb : Within e b) : Within (e + 1) (a + b) := by
  obtain ⟨x, rfl, sizeX⟩ := ha
  obtain ⟨y, rfl, sizeY⟩ := hb
  refine ⟨x + y, rfl, (abs_add_le x y).trans ?_⟩
  rw [pow_succ]
  linarith

theorem Within.sub (ha : Within e a) (hb : Within e b) : Within (e + 1) (a - b) := by
  obtain ⟨x, rfl, sizeX⟩ := ha
  obtain ⟨y, rfl, sizeY⟩ := hb
  refine ⟨x - y, fin_sub_fin x y, (abs_sub x y).trans ?_⟩
  rw [pow_succ]
  linarith

theorem Within.mul (ha : Within e a) (hb : Within f b) : Within (e + f) (a * b) := by
  obtain ⟨x, rfl, sizeX⟩ := ha
  obtain ⟨y, rfl, sizeY⟩ := hb
  refine ⟨x * y, rfl, ?_⟩
  rw [abs_mul, pow_add]
  exact mul_le_mul sizeX sizeY (abs_nonneg y) (by positivity)

end Ieee
