import NeuroKinetic.Library.Ieee
import NeuroKinetic.Library.RidgeProjection
import Mathlib.Analysis.Real.Sqrt

/-- Exact arithmetic is arithmetic in the real numbers. -/
noncomputable instance : SquareRoot ℝ := ⟨Real.sqrt⟩

instance : LawfulSquareRoot ℝ where
  sqrt_nonneg x _ := Real.sqrt_nonneg x
  mul_self_sqrt _ h := Real.mul_self_sqrt h

noncomputable instance : RidgeProjection.ExactSolver ℝ := RidgeProjection.cramerSolver ℝ
