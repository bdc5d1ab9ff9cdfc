import NeuroKinetic.DiagnosticHold
import NeuroKinetic.Library.RealFourier
import NeuroKinetic.Library.RoundingError
import NeuroKinetic.ReadingWords

open Binary32 RoundingError

namespace NeuroKinetic

section Twin

/-- What the twin calls of numpy: the transform of a channel and its inverse, the product of a
coefficient, the roundings of the operations and `round(_, 2)`. The state is of 32-bit and the
temperature of 64-bit floats; the width of what comes back from the transform depends on the
version. -/
structure TwinNumpy where
  rfft : (Fin DOF → ℝ) → ℕ → ℂ
  irfft : (ℕ → ℂ) → Fin DOF → ℝ
  times : ℂ → ℝ → ℂ
  single : ℝ → ℝ
  spectral : ℝ → ℝ
  double : ℝ → ℝ
  roundStress : ℝ → ℝ
  roundTemp : ℝ → ℝ

/-- What is documented of it, up to an error: the formulas of the transforms, the arithmetic of
floats within their range, and that numbers are rounded to two decimals by way of `rint`. -/
structure TwinNumpy.Documented (numpy : TwinNumpy) (ε : ℝ) : Prop where
  rfft : ∀ x k, k ≤ DOF / 2 →
    ‖numpy.rfft x k - RealFourier.rfft (n := DOF) x k‖ ≤ ε * (1 + ∑ j, |x j|)
  irfft : ∀ c j, |numpy.irfft c j - RealFourier.irfft (n := DOF) c j| ≤
    ε * (1 + ∑ k ∈ Finset.range (DOF / 2 + 1), ‖c k‖)
  times : ∀ (c : ℂ) (x : ℝ), |x| ≤ 1 → ‖numpy.times c x - c * x‖ ≤ ε * (1 + ‖c‖)
  single : Rounding ε numpy.single
  spectral : Rounding ε numpy.spectral
  double : Rounding ε numpy.double
  roundStress : ∀ x, 0 ≤ x →
    numpy.roundStress x = numpy.spectral (roundHalfEven (numpy.spectral (x * 100)) / 100)
  roundTemp : ∀ x, 0 ≤ x →
    numpy.roundTemp x = numpy.double (roundHalfEven (numpy.double (x * 100)) / 100)

structure PhysicsTwin where
  jointTemperaturesC : Fin DOF → ℝ
  vonMisesStressMpa : Fin DOF → ℝ
  maxStressMpa : ℝ
  maxTempC : ℝ

/-- How many frequencies the surrogate would keep. -/
def modes : Nat := 8

noncomputable def thermalBaseline : Fin DOF → ℝ := ![24.5, 25.0, 24.8, 26.2, 25.1, 27.0, 24.9]

variable (numpy : TwinNumpy)

/-- The spectral layer on one channel: there, the scaled kept frequencies, and back. -/
noncomputable def reconstructed (channel : Fin DOF → ℝ) : Fin DOF → ℝ :=
  let fftCoeffs := numpy.rfft channel
  let numFreqs := min (DOF / 2 + 1) modes
  let spectralOut := fun k => if k < numFreqs then numpy.times (fftCoeffs k) 0.85 else 0
  numpy.irfft spectralOut

-- the positions, velocities and torques that are read are 32-bit floats already
noncomputable def jointTemps (velocities torques : Fin DOF → ℝ) (j : Fin DOF) : ℝ :=
  let powerLoss := |numpy.single (torques j * velocities j)|
  numpy.double (numpy.double (numpy.double (thermalBaseline j) +
    numpy.single (powerLoss * numpy.single 0.12)) +
    numpy.single (|torques j| * numpy.single 0.04))

noncomputable def vonMisesStress (positions torques : Fin DOF → ℝ) (j : Fin DOF) : ℝ :=
  numpy.spectral (numpy.spectral (|reconstructed numpy torques j| * numpy.spectral 1.85) +
    numpy.single (|positions j| * numpy.single 4.2))

noncomputable def evaluatePhysicsTwin (positions velocities torques : Fin DOF → ℝ) : PhysicsTwin where
  jointTemperaturesC := fun j => numpy.roundTemp (jointTemps numpy velocities torques j)
  vonMisesStressMpa := fun j => numpy.roundStress (vonMisesStress numpy positions torques j)
  maxStressMpa := numpy.roundStress
    (Finset.univ.sup' Finset.univ_nonempty (vonMisesStress numpy positions torques))
  maxTempC := numpy.roundTemp
    (Finset.univ.sup' Finset.univ_nonempty (jointTemps numpy velocities torques))

/-- What the diagnosis takes from the twin. -/
noncomputable def PhysicsTwin.reading (twin : PhysicsTwin) : PhysicsReading ℝ :=
  ⟨.fin twin.maxTempC, .fin twin.maxStressMpa⟩

/-- The stress without any rounding. -/
noncomputable def exactStress (positions torques : Fin DOF → ℝ) (j : Fin DOF) : ℝ :=
  1.5725 * |torques j| + 4.2 * |positions j|

end Twin

section Layer

variable {numpy : TwinNumpy} {ε : ℝ} {torques : Fin DOF → ℝ}

theorem sum_abs_le (torque : ∀ j, |torques j| ≤ 88) : ∑ j, |torques j| ≤ 616 := by
  refine (Finset.sum_le_card_nsmul _ _ 88 fun j _ => torque j).trans ?_
  rw [Finset.card_univ, Fintype.card_fin, nsmul_eq_mul, DOF]
  norm_num

variable (documented : numpy.Documented ε) (nonneg : 0 ≤ ε) (small : ε ≤ 1 / 2 ^ 20)
  (torque : ∀ j, |torques j| ≤ 88)

include documented nonneg small torque

theorem coefficient_near {k : ℕ} (low : k ≤ DOF / 2) :
    ‖numpy.times (numpy.rfft torques k) 0.85 - (0.85 : ℝ) * RealFourier.rfft (n := DOF) torques k‖ ≤
      1200 * ε := by
  have total := sum_abs_le torque
  have exact : ‖RealFourier.rfft (n := DOF) torques k‖ ≤ 616 :=
    (RealFourier.norm_rfft_le (n := DOF) torques k).trans total
  have there : ‖numpy.rfft torques k - RealFourier.rfft (n := DOF) torques k‖ ≤ ε * 617 :=
    (documented.rfft torques k low).trans (mul_le_mul_of_nonneg_left (by linarith) nonneg)
  have size : ‖numpy.rfft torques k‖ ≤ 617 := by
    have split := norm_le_norm_add_norm_sub (RealFourier.rfft (n := DOF) torques k)
      (numpy.rfft torques k)
    rw [norm_sub_rev] at split
    linarith
  have product := (documented.times (numpy.rfft torques k) 0.85 (by norm_num)).trans
    (mul_le_mul_of_nonneg_left (by linarith : 1 + ‖numpy.rfft torques k‖ ≤ 618) nonneg)
  have scaled : ‖numpy.rfft torques k * (0.85 : ℝ) -
      (0.85 : ℝ) * RealFourier.rfft (n := DOF) torques k‖ ≤ 0.85 * (ε * 617) := by
    rw [mul_comm, ← mul_sub, norm_mul, Complex.norm_real, Real.norm_of_nonneg (by norm_num)]
    exact mul_le_mul_of_nonneg_left there (by norm_num)
  have through := norm_sub_le_norm_sub_add_norm_sub (numpy.times (numpy.rfft torques k) 0.85)
    (numpy.rfft torques k * (0.85 : ℝ)) ((0.85 : ℝ) * RealFourier.rfft (n := DOF) torques k)
  linarith

/-- Seven joints have four frequencies, so that the layer drops none of them: all that is left
of it is the scaling. -/
theorem reconstructed_near (j : Fin DOF) :
    |reconstructed numpy torques j - 0.85 * torques j| ≤ 4000 * ε := by
  have kept : ∀ k, k ≤ DOF / 2 → k < min (DOF / 2 + 1) modes := by
    intro k low
    have half : DOF / 2 = 3 := rfl
    rw [half] at low
    exact Nat.lt_succ_of_le low
  let spectralOut : ℕ → ℂ := fun k =>
    if k < min (DOF / 2 + 1) modes then numpy.times (numpy.rfft torques k) 0.85 else 0
  have near : ∀ k, k ≤ DOF / 2 →
      ‖spectralOut k - (0.85 : ℝ) * RealFourier.rfft (n := DOF) torques k‖ ≤ 1200 * ε := by
    intro k low
    simp only [spectralOut, if_pos (kept k low)]
    exact coefficient_near documented nonneg small torque low
  have size : ∑ k ∈ Finset.range (DOF / 2 + 1), ‖spectralOut k‖ ≤ 2100 := by
    have each : ∀ k ∈ Finset.range (DOF / 2 + 1), ‖spectralOut k‖ ≤ 525 := by
      intro k member
      have low : k ≤ DOF / 2 := Nat.lt_succ_iff.mp (Finset.mem_range.mp member)
      have exact := (RealFourier.norm_rfft_le (n := DOF) torques k).trans (sum_abs_le torque)
      have scaled : ‖(0.85 : ℝ) * RealFourier.rfft (n := DOF) torques k‖ ≤ 0.85 * 616 := by
        rw [norm_mul, Complex.norm_real, Real.norm_of_nonneg (by norm_num)]
        exact mul_le_mul_of_nonneg_left exact (by norm_num)
      have split := norm_le_norm_add_norm_sub
        ((0.85 : ℝ) * RealFourier.rfft (n := DOF) torques k) (spectralOut k)
      rw [norm_sub_rev] at split
      have := near k low
      linarith
    refine (Finset.sum_le_card_nsmul _ _ _ each).trans ?_
    rw [Finset.card_range, nsmul_eq_mul, DOF]
    norm_num
  have back := (documented.irfft spectralOut j).trans
    (mul_le_mul_of_nonneg_left (by linarith : _ ≤ (2101 : ℝ)) nonneg)
  have mean := RealFourier.irfft_near (n := DOF) near j
  rw [RealFourier.irfft_scaled (n := DOF) 0.85 torques (fun k _ => rfl) j] at mean
  have through := abs_sub_le (numpy.irfft spectralOut j)
    (RealFourier.irfft (n := DOF) spectralOut j) (0.85 * torques j)
  show |numpy.irfft spectralOut j - 0.85 * torques j| ≤ 4000 * ε
  linarith

theorem torqueStress_near (j : Fin DOF) :
    |numpy.spectral (|reconstructed numpy torques j| * numpy.spectral 1.85) -
      (1.5725 * |torques j|)| ≤ 8500 * ε := by
  have scale : |(0.85 : ℝ) * torques j| = 0.85 * |torques j| := by
    rw [abs_mul, abs_of_pos (by norm_num : (0 : ℝ) < 0.85)]
  have layer : |(|reconstructed numpy torques j| - 0.85 * |torques j|)| ≤ 4000 * ε := by
    rw [← scale]
    exact (abs_abs_sub_abs_le_abs_sub _ _).trans
      (reconstructed_near documented nonneg small torque j)
  have factor : |numpy.spectral 1.85 - 1.85| ≤ 3 * ε := by
    have close := documented.spectral.close 1.85
    rw [abs_of_pos (by norm_num : (0 : ℝ) < 1.85)] at close
    linarith
  have factorSize : |numpy.spectral 1.85| ≤ 2 := by
    rw [abs_of_nonneg (documented.spectral.nonneg (by norm_num))]
    exact_mod_cast documented.spectral.le_whole (n := 2) (by norm_num) (by norm_num)
  have size : |(0.85 * |torques j|)| ≤ 75 := by
    rw [abs_mul, abs_abs, abs_of_pos (by norm_num : (0 : ℝ) < 0.85)]
    linarith [torque j]
  have product := mul_near layer factor size factorSize
  have exact : 0.85 * |torques j| * 1.85 = 1.5725 * |torques j| := by ring
  rw [exact] at product
  have whole : |(1.5725 * |torques j|)| ≤ 139 := by
    rw [abs_mul, abs_abs, abs_of_pos (by norm_num : (0 : ℝ) < 1.5725)]
    linarith [torque j]
  refine (documented.spectral.near nonneg product whole).trans ?_
  nlinarith

omit torque in
theorem positionStress_near (q : ℝ) :
    |numpy.single (|q| * numpy.single 4.2) - (4.2 * |q|)| ≤ ε * (1 + 10 * |q|) := by
  have factor : |numpy.single 4.2 - 4.2| ≤ 5.2 * ε := by
    have close := documented.single.close 4.2
    rw [abs_of_pos (by norm_num : (0 : ℝ) < 4.2)] at close
    linarith
  have product : |(|q| * numpy.single 4.2) - (4.2 * |q|)| ≤ 5.2 * ε * |q| := by
    rw [mul_comm 4.2, ← mul_sub, abs_mul, abs_abs, mul_comm]
    exact mul_le_mul_of_nonneg_right factor (abs_nonneg q)
  have size : |(4.2 * |q|)| ≤ 4.2 * |q| := (abs_of_nonneg (by positivity)).le
  refine (documented.single.near nonneg product size).trans ?_
  have tiny : ε * (ε * |q|) ≤ 1 / 2 ^ 20 * (ε * |q|) :=
    mul_le_mul_of_nonneg_right small (by positivity)
  have grown : 0 ≤ ε * |q| := by positivity
  linarith

/-- What is computed is near the stress without rounding, up to the error of one operation. -/
theorem vonMisesStress_near (positions : Fin DOF → ℝ) (j : Fin DOF) :
    |vonMisesStress numpy positions torques j - exactStress positions torques j| ≤
      ε * (8600 + 4 * exactStress positions torques j) := by
  have sum := add_near (torqueStress_near documented nonneg small torque j)
    (positionStress_near documented nonneg small (positions j))
  have stress : 0 ≤ exactStress positions torques j := by
    unfold exactStress
    positivity
  have size : |exactStress positions torques j| ≤ exactStress positions torques j :=
    (abs_of_nonneg stress).le
  refine (documented.spectral.near nonneg sum size).trans ?_
  have share : 4.2 * |positions j| ≤ exactStress positions torques j := by
    unfold exactStress
    have := abs_nonneg (torques j)
    linarith
  have scaled := mul_le_mul_of_nonneg_left share nonneg
  have tiny : ε * (8501 * ε + 10 * (ε * |positions j|)) ≤
      1 / 2 ^ 20 * (8501 * ε + 10 * (ε * |positions j|)) :=
    mul_le_mul_of_nonneg_right small (by positivity)
  have grown : 0 ≤ ε * |positions j| := by positivity
  linarith

end Layer

section Rounding

variable {numpy : TwinNumpy} {ε : ℝ} (documented : numpy.Documented ε)

include documented

/-- The rounding to hundredths shifts the limit by half of one. -/
theorem lt_roundStress_iff (small : ε ≤ 1 / 2 ^ 20) {x : ℝ} (nonneg : 0 ≤ x) :
    70 < numpy.roundStress x ↔ 7000.5 < numpy.spectral (x * 100) := by
  have scaled : 0 ≤ numpy.spectral (x * 100) :=
    documented.spectral.nonneg (mul_nonneg nonneg (by norm_num))
  have middle := lt_roundHalfEven_iff (n := 7000) scaled (by norm_num)
  rw [documented.roundStress x nonneg]
  constructor
  · intro past
    by_contra low
    have rounded : roundHalfEven (numpy.spectral (x * 100)) ≤ 7000 := by
      by_contra above
      have := middle.mp (not_le.mp above)
      norm_num at this low
      linarith
    have cast : (roundHalfEven (numpy.spectral (x * 100)) : ℝ) ≤ 7000 := by exact_mod_cast rounded
    have top := documented.spectral.le_whole (n := 70) (by norm_num)
      (show (roundHalfEven (numpy.spectral (x * 100)) : ℝ) / 100 ≤ (70 : ℕ) by push_cast; linarith)
    push_cast at top
    linarith
  · intro past
    have rounded : 7001 ≤ roundHalfEven (numpy.spectral (x * 100)) :=
      middle.mpr (by push_cast; linarith)
    have cast : (7001 : ℝ) ≤ roundHalfEven (numpy.spectral (x * 100)) := by exact_mod_cast rounded
    have order := documented.spectral.mono
      (show (70.01 : ℝ) ≤ roundHalfEven (numpy.spectral (x * 100)) / 100 by linarith)
    have close := (abs_le.mp (documented.spectral.close 70.01)).1
    rw [abs_of_pos (by norm_num : (0 : ℝ) < 70.01)] at close
    linarith

theorem roundTemp_le {x : ℝ} {n : ℕ} (few : n * 100 ≤ 2 ^ 20) (nonneg : 0 ≤ x) (h : x ≤ n) :
    numpy.roundTemp x ≤ n := by
  have scaled := documented.double.le_whole few
    (show x * 100 ≤ ((n * 100 : ℕ) : ℝ) by push_cast; linarith)
  have rounded := roundHalfEven_le
    (documented.double.nonneg (mul_nonneg nonneg (by norm_num : (0 : ℝ) ≤ 100))) scaled
  have cast : (roundHalfEven (numpy.double (x * 100)) : ℝ) ≤ n * 100 := by exact_mod_cast rounded
  rw [documented.roundTemp x nonneg]
  exact documented.double.le_whole (by omega) (by linarith)

end Rounding

section Temperatures

variable {numpy : TwinNumpy} {ε : ℝ} (documented : numpy.Documented ε) (small : ε ≤ 1 / 2 ^ 20)
  {velocities torques : Fin DOF → ℝ} {j : Fin DOF}

include documented

omit documented in
theorem thermalBaseline_bounds (j : Fin DOF) : 0 ≤ thermalBaseline j ∧ thermalBaseline j ≤ 27 := by
  unfold thermalBaseline
  fin_cases j <;> norm_num

theorem jointTemps_nonneg (velocities torques : Fin DOF → ℝ) (j : Fin DOF) :
    0 ≤ jointTemps numpy velocities torques j := by
  have single : ∀ x, 0 ≤ x → 0 ≤ numpy.single x := fun x => documented.single.nonneg
  have double : ∀ x, 0 ≤ x → 0 ≤ numpy.double x := fun x => documented.double.nonneg
  refine double _ (add_nonneg (double _ (add_nonneg (double _ (thermalBaseline_bounds j).1) ?_)) ?_)
  · exact single _ (mul_nonneg (abs_nonneg _) (single _ (by norm_num)))
  · exact single _ (mul_nonneg (abs_nonneg _) (single _ (by norm_num)))

include small

/-- Full torque at the daemon's top speed warms no joint beyond 41 degrees. -/
theorem jointTemps_le (torque : |torques j| ≤ 88) (velocity : |velocities j| ≤ 0.86) :
    jointTemps numpy velocities torques j ≤ 41 := by
  have product : |torques j * velocities j| ≤ 76 := by
    rw [abs_mul]
    exact (mul_le_mul torque velocity (abs_nonneg _) (by norm_num)).trans (by norm_num)
  have power : |numpy.single (torques j * velocities j)| ≤ 77 := by
    have close := documented.single.close (torques j * velocities j)
    have split := abs_add_le (numpy.single (torques j * velocities j) - torques j * velocities j)
      (torques j * velocities j)
    rw [sub_add_cancel] at split
    have rounding : ε * (1 + |torques j * velocities j|) ≤ 1 := by
      have grown := mul_le_mul_of_nonneg_right small
        (show 0 ≤ 1 + |torques j * velocities j| by positivity)
      linarith
    linarith
  have shares : numpy.single 0.12 ≤ 0.125 ∧ numpy.single 0.04 ≤ 0.045 := by
    have first := (abs_le.mp (documented.single.close 0.12)).2
    have second := (abs_le.mp (documented.single.close 0.04)).2
    rw [abs_of_pos (by norm_num)] at first second
    exact ⟨by linarith, by linarith⟩
  have joule : numpy.single (|numpy.single (torques j * velocities j)| * numpy.single 0.12) ≤ 10 := by
    have below := mul_le_mul power shares.1 (documented.single.nonneg (by norm_num)) (by norm_num)
    exact_mod_cast documented.single.le_whole (n := 10) (by norm_num)
      (below.trans (by norm_num))
  have load : numpy.single (|torques j| * numpy.single 0.04) ≤ 4 := by
    have below := mul_le_mul torque shares.2 (documented.single.nonneg (by norm_num)) (by norm_num)
    exact_mod_cast documented.single.le_whole (n := 4) (by norm_num) (below.trans (by norm_num))
  have baseline : numpy.double (thermalBaseline j) ≤ 27 := by
    exact_mod_cast documented.double.le_whole (n := 27) (by norm_num)
      (by exact_mod_cast (thermalBaseline_bounds j).2)
  have heated := documented.double.le_whole (n := 37) (by norm_num)
    (show numpy.double (thermalBaseline j) +
      numpy.single (|numpy.single (torques j * velocities j)| * numpy.single 0.12) ≤ (37 : ℕ) by
        push_cast; linarith)
  push_cast at heated
  have final := documented.double.le_whole (n := 41) (by norm_num)
    (show numpy.double (numpy.double (thermalBaseline j) +
      numpy.single (|numpy.single (torques j * velocities j)| * numpy.single 0.12)) +
      numpy.single (|torques j| * numpy.single 0.04) ≤ (41 : ℕ) by push_cast; linarith)
  exact_mod_cast final

end Temperatures

section Diagnosis

variable {numpy : TwinNumpy} {ε : ℝ} (documented : numpy.Documented ε) (nonneg : 0 ≤ ε)
  (small : ε ≤ 1 / 2 ^ 20) {positions velocities torques : Fin DOF → ℝ}

include documented

theorem vonMisesStress_nonneg (positions torques : Fin DOF → ℝ) (j : Fin DOF) :
    0 ≤ vonMisesStress numpy positions torques j := by
  have single : ∀ x, 0 ≤ x → 0 ≤ numpy.single x := fun x => documented.single.nonneg
  have spectral : ∀ x, 0 ≤ x → 0 ≤ numpy.spectral x := fun x => documented.spectral.nonneg
  refine spectral _ (add_nonneg (spectral _ ?_) (single _ ?_))
  · exact mul_nonneg (abs_nonneg _) (spectral _ (by norm_num))
  · exact mul_nonneg (abs_nonneg _) (single _ (by norm_num))

omit documented in
theorem sup_nonneg {f : Fin DOF → ℝ} (nonneg : ∀ j, 0 ≤ f j) :
    0 ≤ Finset.univ.sup' Finset.univ_nonempty f :=
  (nonneg 0).trans (Finset.le_sup' f (Finset.mem_univ 0))

include small

theorem maxTempC_le (torque : ∀ j, |torques j| ≤ 88) (velocity : ∀ j, |velocities j| ≤ 0.86) :
    (evaluatePhysicsTwin numpy positions velocities torques).maxTempC ≤ 41 := by
  have top : Finset.univ.sup' Finset.univ_nonempty (jointTemps numpy velocities torques) ≤
      (41 : ℕ) :=
    Finset.sup'_le _ _ fun j _ => by
      exact_mod_cast jointTemps_le documented small (torque j) (velocity j)
  exact_mod_cast roundTemp_le documented (n := 41) (by norm_num)
    (sup_nonneg (jointTemps_nonneg documented velocities torques)) top

include nonneg

/-- Some joint's stress clears the limit by more than the error. -/
theorem lt_maxStressMpa (torque : ∀ j, |torques j| ≤ 88) {j : Fin DOF}
    (past : 70.005 + 10000 * ε < exactStress positions torques j) :
    70 < (evaluatePhysicsTwin numpy positions velocities torques).maxStressMpa := by
  have stress := vonMisesStress_nonneg documented positions torques
  refine (lt_roundStress_iff documented small (sup_nonneg stress)).mpr ?_
  have near := (abs_le.mp (vonMisesStress_near documented nonneg small torque positions j)).1
  have most := Finset.le_sup' (vonMisesStress numpy positions torques) (Finset.mem_univ j)
  have order := documented.spectral.mono (mul_le_mul_of_nonneg_right most (by norm_num : (0 : ℝ) ≤ 100))
  have close := (abs_le.mp (documented.spectral.close
    (vonMisesStress numpy positions torques j * 100))).1
  rw [abs_of_nonneg (mul_nonneg (stress j) (by norm_num))] at close
  generalize exactStress positions torques j = exact at past near
  generalize vonMisesStress numpy positions torques j = computed at near order close
  have square : ε * ε ≤ 1 / 2 ^ 20 * ε := mul_le_mul_of_nonneg_right small nonneg
  have left : 0 ≤ 1 - 4 * ε := by linarith
  have above : 70.005 + 1000 * ε < computed := by
    nlinarith [mul_le_mul_of_nonneg_right past.le left]
  nlinarith

/-- No joint's stress comes as near to the limit as the error. -/
theorem maxStressMpa_le (torque : ∀ j, |torques j| ≤ 88)
    (below : ∀ j, exactStress positions torques j ≤ 70.005 - 10000 * ε) :
    ¬70 < (evaluatePhysicsTwin numpy positions velocities torques).maxStressMpa := by
  have stress := vonMisesStress_nonneg documented positions torques
  have top : Finset.univ.sup' Finset.univ_nonempty (vonMisesStress numpy positions torques) ≤
      70.005 - 1000 * ε := by
    refine Finset.sup'_le _ _ fun j _ => ?_
    have near := (abs_le.mp (vonMisesStress_near documented nonneg small torque positions j)).2
    have whole : exactStress positions torques j ≤ 70.005 := (below j).trans (by linarith)
    have scaled := mul_le_mul_of_nonneg_left whole nonneg
    have := below j
    linarith
  refine (lt_roundStress_iff documented small (sup_nonneg stress)).not.mpr (not_lt.mpr ?_)
  have close := (abs_le.mp (documented.spectral.close
    (Finset.univ.sup' Finset.univ_nonempty (vonMisesStress numpy positions torques) * 100))).2
  rw [abs_of_nonneg (mul_nonneg (sup_nonneg stress) (by norm_num))] at close
  have whole : Finset.univ.sup' Finset.univ_nonempty (vonMisesStress numpy positions torques) ≤
      70.005 := top.trans (by linarith)
  have scaled := mul_le_mul_of_nonneg_left whole nonneg
  linarith

omit nonneg in
/-- The thermal branch is out of reach; the rest of the verdict is the stress and the clamps. -/
theorem verdict_eq (agent : ForensicDiagnosticAgent) (telem : TelemetryReading ℝ)
    (torque : ∀ j, |torques j| ≤ 88) (velocity : ∀ j, |velocities j| ≤ 0.86) :
    let twin := evaluatePhysicsTwin numpy positions velocities torques
    let answer := agent.evaluateSafetyTelemetry telem twin.reading
    answer.2 = if 70 < twin.maxStressMpa then .structuralStressWarning
    else if 25 < answer.1.consecutiveClamps then .collisionHazardHold else .nominal := by
  intro twin
  have cool : ¬Ieee.fin (65 : ℝ) < twin.reading.maxTempC := by
    have top : twin.maxTempC ≤ 41 := maxTempC_le documented small torque velocity
    exact Ieee.fin_lt_fin.not.mpr (not_lt.mpr (top.trans (by norm_num)))
  have stressed : Ieee.fin (70 : ℝ) < twin.reading.maxStressMpa ↔ 70 < twin.maxStressMpa :=
    Ieee.fin_lt_fin
  simp only [ForensicDiagnosticAgent.evaluateSafetyTelemetry, if_neg cool, stressed]

variable {ι : Type} [DecidableEq ι]

/-- What the diagnosis can say beside a running daemon, whichever dictionary it is given: never
that a joint is hot; a stress warning when some joint is past the limit by more than the error
of the twin's arithmetic, none when no joint comes as near to it; and otherwise what the clamps
say. -/
theorem daemon_diagnosis (now : Int) {run : List (RecordedInput ℝ)} (short : run.length ≤ 2 ^ 64)
    {turns : List (TelemetryTurn ι ℝ)}
    (frames : ∀ frame, .daemon frame ∈ turns → FrameOf now run frame)
    (agent : ForensicDiagnosticAgent) :
    ∀ r ∈ (TelemetryLink.start.run turns).returned, ∃ positions velocities torques : Fin DOF → ℝ,
      r.positions = (fun j => .fin (positions j)) ∧ r.velocities = (fun j => .fin (velocities j)) ∧
      r.torques = (fun j => .fin (torques j)) ∧
      let twin := evaluatePhysicsTwin numpy positions velocities torques
      let answer := agent.evaluateSafetyTelemetry r twin.reading
      let clamped : Verdict :=
        if 25 < answer.1.consecutiveClamps then .collisionHazardHold else .nominal
      twin.maxTempC ≤ 41 ∧
        (answer.2 = .structuralStressWarning ∨ answer.2 = clamped) ∧
        ((∃ j, 70.005 + 10000 * ε < exactStress positions torques j) →
          answer.2 = .structuralStressWarning) ∧
        ((∀ j, exactStress positions torques j ≤ 70.005 - 10000 * ε) → answer.2 = clamped) := by
  intro r member
  have bounds := (daemon_wordsKept now short frames).readingBounds member
  choose positions position using bounds.positions
  choose velocities velocity using bounds.velocities
  choose torques torque using bounds.torques
  have load : ∀ j, |torques j| ≤ 88 := fun j => (torque j).2.trans (by norm_num)
  have speed : ∀ j, |velocities j| ≤ 0.86 := fun j => (velocity j).2.trans (by norm_num)
  refine ⟨positions, velocities, torques, funext position, funext fun j => (velocity j).1,
    funext fun j => (torque j).1, maxTempC_le documented small load speed, ?_, ?_, ?_⟩
  · rw [verdict_eq documented small agent r load speed]
    split
    next => exact Or.inl rfl
    next => exact Or.inr rfl
  · rintro ⟨j, past⟩
    rw [verdict_eq documented small agent r load speed,
      if_pos (lt_maxStressMpa documented nonneg small load past)]
  · intro below
    rw [verdict_eq documented small agent r load speed,
      if_neg (maxStressMpa_le documented nonneg small load below)]

end Diagnosis

section Exact

/-- The functions of numpy without any rounding of their own. -/
noncomputable def exactTwinNumpy : TwinNumpy where
  rfft := RealFourier.rfft (n := DOF)
  irfft := RealFourier.irfft (n := DOF)
  times c x := c * x
  single := id
  spectral := id
  double := id
  roundStress x := (roundHalfEven (x * 100) : ℝ) / 100
  roundTemp x := (roundHalfEven (x * 100) : ℝ) / 100

theorem exactTwinNumpy_documented : exactTwinNumpy.Documented 0 := by
  constructor
  case rfft => exact fun x k _ => by simp [exactTwinNumpy]
  case irfft => exact fun c j => by simp [exactTwinNumpy]
  case times => exact fun c x _ => by simp [exactTwinNumpy]
  case single => exact rounding_id le_rfl
  case spectral => exact rounding_id le_rfl
  case double => exact rounding_id le_rfl
  case roundStress => exact fun x _ => rfl
  case roundTemp => exact fun x _ => rfl

theorem daemon_diagnosis_refused :
    (TelemetryLink.start.run refusedReading).returned.length = 1 ∧
    ∀ r ∈ (TelemetryLink.start.run refusedReading).returned,
      ∃ positions velocities torques : Fin DOF → ℝ,
        r.positions = (fun j => .fin (positions j)) ∧
        r.velocities = (fun j => .fin (velocities j)) ∧ r.torques = (fun j => .fin (torques j)) ∧
        let twin := evaluatePhysicsTwin exactTwinNumpy positions velocities torques
        let answer := ForensicDiagnosticAgent.evaluateSafetyTelemetry ⟨26⟩ r twin.reading
        let clamped : Verdict :=
          if 25 < answer.1.consecutiveClamps then .collisionHazardHold else .nominal
        twin.maxTempC ≤ 41 ∧
          (answer.2 = .structuralStressWarning ∨ answer.2 = clamped) ∧
          ((∃ j, 70.005 + 10000 * 0 < exactStress positions torques j) →
            answer.2 = .structuralStressWarning) ∧
          ((∀ j, exactStress positions torques j ≤ 70.005 - 10000 * 0) → answer.2 = clamped) :=
  ⟨refusedReading_returned,
    daemon_diagnosis exactTwinNumpy_documented le_rfl (by norm_num) 0
      (show [refusedCommand].length ≤ 2 ^ 64 by norm_num) refusedReading_frames ⟨26⟩⟩

end Exact

end NeuroKinetic
