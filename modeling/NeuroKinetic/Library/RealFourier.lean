import Mathlib.Analysis.Fourier.ZMod

/-! The discrete Fourier transform of a real sequence, by the half of its spectrum that
determines it, and back. -/

open ComplexConjugate

namespace RealFourier

variable {n : ℕ} [NeZero n]

/-- A coefficient of a real sequence; those up to the middle are the spectrum. -/
noncomputable def rfft (x : ZMod n → ℝ) (k : ℕ) : ℂ := ZMod.dft (fun j => (x j : ℂ)) (k : ZMod n)

/-- A half spectrum, completed by the conjugates that a real sequence has in the other half. -/
noncomputable def hermitian (c : ℕ → ℂ) (k : ZMod n) : ℂ :=
  if k.val ≤ n / 2 then c k.val else conj (c (n - k.val))

noncomputable def irfft (c : ℕ → ℂ) (j : ZMod n) : ℝ := (ZMod.dft.symm (hermitian c) j).re

theorem dft_neg_conj (x : ZMod n → ℝ) (k : ZMod n) :
    ZMod.dft (fun j => (x j : ℂ)) (-k) = conj (ZMod.dft (fun j => (x j : ℂ)) k) := by
  rw [ZMod.dft_apply, ZMod.dft_apply, map_sum]
  refine Finset.sum_congr rfl fun j _ => ?_
  rw [smul_eq_mul, smul_eq_mul, map_mul, Complex.conj_ofReal, ← AddChar.map_neg_eq_conj, mul_neg]

theorem hermitian_rfft (scale : ℝ) (x : ZMod n → ℝ) :
    hermitian (fun k => scale * rfft x k) =
      fun k => (scale : ℂ) * ZMod.dft (fun j => (x j : ℂ)) k := by
  funext k
  unfold hermitian
  split
  next => simp only [rfft, ZMod.natCast_zmod_val]
  next =>
    have mirrored : ((n - k.val : ℕ) : ZMod n) = -k := by
      rw [Nat.cast_sub (ZMod.val_le k), ZMod.natCast_self, ZMod.natCast_zmod_val, zero_sub]
    simp only [rfft, mirrored, map_mul, Complex.conj_ofReal, dft_neg_conj, Complex.conj_conj]

theorem hermitian_congr {c c' : ℕ → ℂ} (h : ∀ k, k ≤ n / 2 → c k = c' k) :
    (hermitian c : ZMod n → ℂ) = hermitian c' := by
  funext k
  unfold hermitian
  split
  next low => exact h _ low
  next high =>
    have below := ZMod.val_lt k
    exact congrArg conj (h _ (by omega))

/-- A scaled spectrum is that of the scaled sequence, whatever stands beyond its middle. -/
theorem irfft_scaled (scale : ℝ) (x : ZMod n → ℝ) {c : ℕ → ℂ}
    (h : ∀ k, k ≤ n / 2 → c k = scale * rfft x k) (j : ZMod n) : irfft c j = scale * x j := by
  have scaled : (fun k => (scale : ℂ) * ZMod.dft (fun j => (x j : ℂ)) k) =
      ZMod.dft fun j => (scale : ℂ) * (x j : ℂ) := (ZMod.dft_const_mul _ _).symm
  rw [irfft, hermitian_congr h, hermitian_rfft, scaled, LinearEquiv.symm_apply_apply,
    ← Complex.ofReal_mul, Complex.ofReal_re]

theorem norm_rfft_le (x : ZMod n → ℝ) (k : ℕ) : ‖rfft x k‖ ≤ ∑ j, |x j| := by
  rw [rfft, ZMod.dft_apply]
  refine (norm_sum_le _ _).trans (Finset.sum_le_sum fun j _ => ?_)
  rw [norm_smul, AddChar.norm_apply, one_mul, Complex.norm_real, Real.norm_eq_abs]

theorem norm_hermitian_sub_le {c c' : ℕ → ℂ} {d : ℝ} (h : ∀ k, k ≤ n / 2 → ‖c k - c' k‖ ≤ d)
    (k : ZMod n) : ‖hermitian c k - hermitian c' k‖ ≤ d := by
  unfold hermitian
  split
  next low => exact h _ low
  next high =>
    have below := ZMod.val_lt k
    rw [← map_sub, RCLike.norm_conj]
    exact h _ (by omega)

/-- The way back is a mean: it makes no error larger. -/
theorem irfft_near {c c' : ℕ → ℂ} {d : ℝ} (h : ∀ k, k ≤ n / 2 → ‖c k - c' k‖ ≤ d) (j : ZMod n) :
    |irfft c j - irfft c' j| ≤ d := by
  have positive : (0 : ℝ) < n := Nat.cast_pos.mpr (NeZero.pos n)
  have total : ‖∑ k : ZMod n, ZMod.stdAddChar (k * j) • (hermitian c k - hermitian c' k)‖ ≤
      n * d := by
    calc ‖∑ k : ZMod n, ZMod.stdAddChar (k * j) • (hermitian c k - hermitian c' k)‖
        ≤ ∑ _k : ZMod n, d := by
          refine norm_sum_le_of_le _ fun k _ => ?_
          rw [norm_smul, AddChar.norm_apply, one_mul]
          exact norm_hermitian_sub_le h k
      _ = n * d := by rw [Finset.sum_const, Finset.card_univ, ZMod.card, nsmul_eq_mul]
  rw [irfft, irfft, ← Complex.sub_re, ← Pi.sub_apply, ← map_sub, ZMod.invDFT_apply]
  refine (Complex.abs_re_le_norm _).trans ?_
  rw [norm_smul, norm_inv, Complex.norm_natCast, inv_mul_le_iff₀ positive]
  exact total

end RealFourier
