import NeuroKinetic.Library.Binary32

/-! The conversion to single precision keeps the order of the magnitudes. -/

namespace Binary32

variable {K : Type} [Field K] [LinearOrder K] [FloorRing K]

/-- A value as single precision has it. -/
def narrow (x : Ieee K) : Ieee K := decode (cast x)

theorem roundHalfEven_le_succ (x : K) : roundHalfEven x ≤ ⌊x⌋.toNat + 1 := by
  simp only [roundHalfEven]
  split_ifs <;> omega

/-- Rounding neither makes a number unordered or infinite nor the reverse. -/
theorem round_toFinite? {x y : Ieee K} (h : round x = some y) :
    y.toFinite?.isSome ↔ x.toFinite?.isSome := by
  obtain ⟨w, encoded, rfl⟩ := Option.map_eq_some_iff.mp h
  cases x with
  | fin x =>
    simp only [encode] at encoded
    split at encoded
    next small =>
      cases Option.some.inj encoded
      split
      next => rw [decode_negative small]; rfl
      next => rw [decode_positive small]; rfl
    next => cases encoded
  | posInf => cases Option.some.inj encoded; rfl
  | negInf => cases Option.some.inj encoded; rfl
  | nan => cases Option.some.inj encoded; rfl

variable [IsStrictOrderedRing K]

theorem roundHalfEven_mono {x y : K} (nonneg : 0 ≤ x) (h : x ≤ y) :
    roundHalfEven x ≤ roundHalfEven y := by
  have floorNonneg : 0 ≤ ⌊x⌋ := Int.floor_nonneg.mpr nonneg
  have floors : ⌊x⌋ ≤ ⌊y⌋ := Int.floor_mono h
  rcases floors.lt_or_eq with below | same
  · have whole : ((⌊y⌋.toNat : ℕ) : K) ≤ y := by
      have cast : ((⌊y⌋.toNat : ℤ) : K) ≤ y := by
        rw [Int.toNat_of_nonneg (floorNonneg.trans floors)]
        exact Int.floor_le y
      exact_mod_cast cast
    have low := le_roundHalfEven whole
    have high := roundHalfEven_le_succ x
    omega
  · simp only [roundHalfEven, ← same]
    have twice : x - ⌊x⌋.toNat + (x - ⌊x⌋.toNat) ≤ y - ⌊x⌋.toNat + (y - ⌊x⌋.toNat) := by linarith
    split_ifs <;> first | omega | (exfalso; linarith)

theorem encodeMagnitude_mono {x y : K} (nonneg : 0 ≤ x) (h : x ≤ y) :
    encodeMagnitude x ≤ encodeMagnitude y := by
  have scale : ∀ {u v : K} (e : ℤ), u ≤ v → u * pow2 e ≤ v * pow2 e := fun e below =>
    mul_le_mul_of_nonneg_right below (pow2_pos e).le
  by_cases large : y < pow2 (-126)
  · rw [encodeMagnitude, encodeMagnitude, if_pos large, if_pos (h.trans_lt large)]
    exact roundHalfEven_mono (mul_nonneg nonneg (pow2_pos _).le) (scale _ h)
  · have positive : 0 < y := (pow2_pos (-126)).trans_le (not_lt.mp large)
    have logLow : -126 ≤ Int.log 2 y :=
      (Int.zpow_le_iff_le_log one_lt_two positive).mp (not_lt.mp large)
    have normal : 2 ^ 23 ≤ roundHalfEven (y * pow2 (23 - Int.log 2 y)) := by
      refine le_roundHalfEven ?_
      have above := scale (23 - Int.log 2 y) (Int.zpow_log_le_self (b := 2) one_lt_two positive)
      rw [← pow2_natCast]
      refine le_trans ?_ above
      rw [show ((2 : ℕ) : K) ^ Int.log 2 y = pow2 (Int.log 2 y) from rfl, ← pow2_add]
      exact pow2_le (by push_cast; omega)
    rw [encodeMagnitude, encodeMagnitude, if_neg large]
    split
    next small =>
      have scaled : x * pow2 149 ≤ ((2 ^ 23 : ℕ) : K) := by
        have below := scale 149 small.le
        rwa [← pow2_add, show (-126 + 149 : ℤ) = (23 : ℕ) by norm_num, pow2_natCast] at below
      have rounded := roundHalfEven_le (mul_nonneg nonneg (pow2_pos 149).le) scaled
      dsimp only
      omega
    next above =>
      have xPositive : 0 < x := (pow2_pos (-126)).trans_le (not_lt.mp above)
      have xLow : -126 ≤ Int.log 2 x :=
        (Int.zpow_le_iff_le_log one_lt_two xPositive).mp (not_lt.mp above)
      have logs : Int.log 2 x ≤ Int.log 2 y := Int.log_mono_right xPositive h
      dsimp only
      rcases logs.lt_or_eq with below | same
      · have scaled : x * pow2 (23 - Int.log 2 x) ≤ ((2 ^ 24 : ℕ) : K) := by
          have above : x < pow2 (Int.log 2 x + 1) := Int.lt_zpow_succ_log_self one_lt_two x
          have cut := scale (23 - Int.log 2 x) above.le
          rwa [← pow2_add, show Int.log 2 x + 1 + (23 - Int.log 2 x) = (24 : ℕ) by
            push_cast; omega, pow2_natCast] at cut
        have rounded := roundHalfEven_le (mul_nonneg nonneg (pow2_pos _).le) scaled
        omega
      · rw [same]
        exact Nat.add_le_add_left (roundHalfEven_mono (mul_nonneg nonneg (pow2_pos _).le)
          (scale _ h)) _

theorem magnitude_mono {m n : ℕ} (h : m ≤ n) : (magnitude m : K) ≤ magnitude n := by
  by_contra above
  have order := encodeMagnitude_mono (magnitude_nonneg n) (not_le.mp above).le
  rw [encodeMagnitude_magnitude, encodeMagnitude_magnitude] at order
  rw [le_antisymm h order] at above
  exact above le_rfl

/-- Above an even number only what is past the middle is rounded to something greater. -/
theorem lt_roundHalfEven_iff {x : K} {n : ℕ} (nonneg : 0 ≤ x) (even : n % 2 = 0) :
    n < roundHalfEven x ↔ (n : K) + 1 / 2 < x := by
  have floorNonneg : 0 ≤ ⌊x⌋ := Int.floor_nonneg.mpr nonneg
  obtain ⟨m, floor⟩ := Int.eq_ofNat_of_zero_le floorNonneg
  have low : (m : K) ≤ x := by
    have below := Int.floor_le x
    rwa [floor, Int.cast_natCast] at below
  have high : x < m + 1 := by
    have above := Int.lt_floor_add_one x
    rwa [floor, Int.cast_natCast] at above
  have cast : ∀ {a b : ℕ}, a < b → (a : K) + 1 ≤ b := fun below => by exact_mod_cast below
  have floored : ⌊x⌋.toNat = m := by rw [floor]; rfl
  simp only [roundHalfEven, floored]
  rcases lt_trichotomy n m with below | rfl | above
  · have apart := cast below
    refine iff_of_true ?_ (by linarith)
    split_ifs <;> omega
  · rw [if_pos even]
    constructor
    · intro rounded
      split_ifs at rounded with lower upper
      · omega
      · linarith
      · omega
    · intro past
      rw [if_neg (by linarith), if_pos (by linarith)]
      omega
  · have apart := cast above
    refine iff_of_false ?_ (by linarith)
    split_ifs <;> omega

/-- A number below one that the format has is narrowed to a number of its sign that does
not come above it either. -/
theorem narrow_le {x : K} {n : ℕ} (finite : n < infinityBits) (h : |x| ≤ magnitude n) :
    ∃ y, narrow (.fin x) = .fin y ∧ |y| ≤ magnitude n ∧ (0 ≤ x → 0 ≤ y) ∧ (x ≤ 0 → y ≤ 0) ∧
      ∀ m : ℕ, magnitude m ≤ |x| → magnitude m ≤ |y| := by
  have bound : encodeMagnitude |x| ≤ n := by
    have order := encodeMagnitude_mono (abs_nonneg x) h
    rwa [encodeMagnitude_magnitude] at order
  have inside : encodeMagnitude |x| < infinityBits := bound.trans_lt finite
  have nonneg := magnitude_nonneg (K := K) (encodeMagnitude |x|)
  have least : ∀ m : ℕ, magnitude m ≤ |x| → (magnitude m : K) ≤ magnitude (encodeMagnitude |x|) := by
    intro m below
    have order := encodeMagnitude_mono (magnitude_nonneg m) below
    rw [encodeMagnitude_magnitude] at order
    exact magnitude_mono order
  by_cases below : x < 0
  · refine ⟨-magnitude (encodeMagnitude |x|), ?_, ?_, fun above => absurd above (not_le.mpr below),
      fun _ => neg_nonpos.mpr nonneg, fun m low => ?_⟩
    · rw [narrow, cast, encode]
      simp only [if_pos inside, if_pos below, Option.getD_some]
      exact decode_negative inside
    · rw [abs_neg, abs_of_nonneg nonneg]
      exact magnitude_mono bound
    · rw [abs_neg, abs_of_nonneg nonneg]
      exact least m low
  · refine ⟨magnitude (encodeMagnitude |x|), ?_, ?_, fun _ => nonneg, fun above => ?_,
      fun m low => ?_⟩
    · rw [narrow, cast, encode]
      simp only [if_pos inside, if_neg below, Option.getD_some]
      exact decode_positive inside
    · rw [abs_of_nonneg nonneg]
      exact magnitude_mono bound
    · have zero : x = 0 := le_antisymm above (not_lt.mp below)
      have first : magnitude 0 = (0 : K) := by simp [magnitude]
      have code : encodeMagnitude |x| = 0 := by
        rw [zero, abs_zero, ← first, encodeMagnitude_magnitude]
      rw [code, first]
    · rw [abs_of_nonneg nonneg]
      exact least m low

theorem narrow_finite {x : K} (h : |x| < pow2 127) : ∃ y, narrow (.fin x) = .fin y := by
  rw [narrow, decode, if_pos (cast_lt h)]
  exact ⟨_, rfl⟩

/-- A number that the format has is narrowed to itself. -/
theorem narrow_of_abs {x : K} {n : ℕ} (h : n < infinityBits) (size : |x| = magnitude n) :
    narrow (.fin x) = .fin x := by
  obtain ⟨w, encoded, decoded⟩ := Option.map_eq_some_iff.mp (round_of_abs h size)
  rw [narrow, cast, encoded, Option.getD_some, decoded]

theorem narrow_zero : narrow (.fin 0 : Ieee K) = .fin 0 :=
  narrow_of_abs (n := 0) (by decide) (by simp [magnitude])

omit [LinearOrder K] [FloorRing K] [IsStrictOrderedRing K] in
/-- The number with the given bits of a normal exponent and mantissa. -/
theorem magnitude_normal [CharZero K] {n m e : ℕ} (large : 2 ^ 23 ≤ n)
    (mantissa : 2 ^ 23 + n % 2 ^ 23 = m) (scale : n / 2 ^ 23 + e = 150) :
    (magnitude n : K) = m / ((2 ^ e : ℕ) : K) := by
  have exponent : ((n / 2 ^ 23 : ℕ) : ℤ) - 150 = -(e : ℤ) := by omega
  rw [magnitude, if_neg (by omega), mantissa, exponent, pow2, zpow_neg, zpow_natCast,
    ← Nat.cast_pow, div_eq_mul_inv]

end Binary32
