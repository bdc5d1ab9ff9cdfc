import NeuroKinetic.Library.Ieee
import Mathlib.Algebra.Order.Floor.Ring
import Mathlib.Data.Int.Log
import Mathlib.Tactic.Linarith
import Mathlib.Tactic.NormNum

/-! Single-precision floating-point numbers: 32-bit words, the values they stand
for, and the conversion of a value to the nearest word. -/

namespace Binary32

variable {K : Type} [Field K]

/-- A power of two; the base is a cast, as in the lemmas on logarithms. -/
def pow2 (e : ℤ) : K := ((2 : ℕ) : K) ^ e

/-- The value of the 31 bits below the sign of a finite number. -/
def magnitude (n : ℕ) : K :=
  if n < 2 ^ 23 then (n : K) * pow2 (-149)
  else ((2 ^ 23 + n % 2 ^ 23 : ℕ) : K) * pow2 ((n / 2 ^ 23 : ℕ) - 150)

/-- The first pattern of the infinities and the unordered values. -/
def infinityBits : ℕ := 255 * 2 ^ 23

def decode (w : BitVec 32) : Ieee K :=
  let n := w.toNat % 2 ^ 31
  let negative := 2 ^ 31 ≤ w.toNat
  if n < infinityBits then .fin (if negative then -magnitude n else magnitude n)
  else if n = infinityBits then (if negative then .negInf else .posInf)
  else .nan

variable [LinearOrder K] [FloorRing K]

/-- The nearest whole number, an even one when two are equally near. -/
def roundHalfEven (x : K) : ℕ :=
  let m := ⌊x⌋.toNat
  let twice := (x - m) + (x - m)
  if twice < 1 then m else if 1 < twice then m + 1 else if m % 2 = 0 then m else m + 1

def encodeMagnitude (x : K) : ℕ :=
  if x < pow2 (-126) then roundHalfEven (x * pow2 149)
  else
    let e := Int.log 2 x
    (e + 126).toNat * 2 ^ 23 + roundHalfEven (x * pow2 (23 - e))

/-- The nearest word, where the value does not overflow the format. -/
def encode : Ieee K → Option (BitVec 32)
  | .fin x =>
    let n := encodeMagnitude |x|
    if n < infinityBits then some (BitVec.ofNat 32 (if x < 0 then 2 ^ 31 + n else n)) else none
  | .posInf => some (BitVec.ofNat 32 infinityBits)
  | .negInf => some (BitVec.ofNat 32 (2 ^ 31 + infinityBits))
  | .nan => some (BitVec.ofNat 32 (infinityBits + 2 ^ 22))

def round (x : Ieee K) : Option (Ieee K) := (encode x).map decode

/-- The conversion that overflows to the infinities. -/
def cast (x : Ieee K) : BitVec 32 :=
  (encode x).getD (BitVec.ofNat 32 (if x < .fin 0 then 2 ^ 31 + infinityBits else infinityBits))

section RoundTrip

variable [IsStrictOrderedRing K]

omit [LinearOrder K] [FloorRing K] [IsStrictOrderedRing K] in
theorem pow2_add [CharZero K] (a b : ℤ) : (pow2 (a + b) : K) = pow2 a * pow2 b :=
  zpow_add₀ (by norm_num) a b

omit [LinearOrder K] [FloorRing K] [IsStrictOrderedRing K] in
theorem pow2_mul_cancel [CharZero K] (x : K) {a b : ℤ} (h : a + b = 0) :
    x * pow2 a * pow2 b = x := by
  rw [mul_assoc, ← pow2_add, h]
  simp [pow2]

omit [LinearOrder K] [FloorRing K] [IsStrictOrderedRing K] in
theorem pow2_natCast (k : ℕ) : (pow2 k : K) = ((2 ^ k : ℕ) : K) := by
  rw [pow2, zpow_natCast, Nat.cast_pow]

omit [FloorRing K] in
theorem pow2_pos (e : ℤ) : (0 : K) < pow2 e := zpow_pos (by norm_num) e

omit [FloorRing K] in
theorem pow2_le {a b : ℤ} (h : a ≤ b) : (pow2 a : K) ≤ pow2 b :=
  zpow_le_zpow_right₀ (by norm_num) h

omit [FloorRing K] in
theorem natCast_lt_pow2 {n k : ℕ} (h : n < 2 ^ k) : (n : K) < pow2 k := by
  rw [pow2_natCast]
  exact Nat.cast_lt.mpr h

omit [FloorRing K] in
/-- A significand of at most `k` bits, scaled. -/
theorem scaled_lt {m k : ℕ} {e : ℤ} (h : m < 2 ^ k) : (m : K) * pow2 e < pow2 (k + e) := by
  rw [pow2_add, pow2_natCast]
  exact mul_lt_mul_of_pos_right (Nat.cast_lt.mpr h) (pow2_pos e)

omit [FloorRing K] in
theorem le_scaled {m k : ℕ} {e : ℤ} (h : 2 ^ k ≤ m) : (pow2 (k + e) : K) ≤ m * pow2 e := by
  rw [pow2_add, pow2_natCast]
  exact mul_le_mul_of_nonneg_right (Nat.cast_le.mpr h) (pow2_pos e).le

omit [FloorRing K] in
theorem magnitude_nonneg (n : ℕ) : (0 : K) ≤ magnitude n := by
  unfold magnitude
  split
  next => exact mul_nonneg (Nat.cast_nonneg n) (pow2_pos _).le
  next => exact mul_nonneg (Nat.cast_nonneg _) (pow2_pos _).le

theorem roundHalfEven_natCast (n : ℕ) : roundHalfEven (n : K) = n := by
  simp only [roundHalfEven, Int.floor_natCast, Int.toNat_natCast, sub_self, add_zero, zero_lt_one,
    if_true]

omit [IsStrictOrderedRing K] in
theorem le_roundHalfEven {m : ℕ} {x : K} (h : (m : K) ≤ x) : m ≤ roundHalfEven x := by
  have floor : (m : ℤ) ≤ ⌊x⌋ := Int.le_floor.mpr (by exact_mod_cast h)
  simp only [roundHalfEven]
  split_ifs <;> omega

theorem roundHalfEven_le {m : ℕ} {x : K} (nonneg : 0 ≤ x) (h : x ≤ m) : roundHalfEven x ≤ m := by
  have floor : ⌊x⌋ ≤ m := Int.floor_le_iff.mpr (by push_cast; linarith)
  have floorNonneg : 0 ≤ ⌊x⌋ := Int.floor_nonneg.mpr nonneg
  rcases floor.lt_or_eq with below | whole
  · simp only [roundHalfEven]
    split_ifs <;> omega
  · have same : x = m := le_antisymm h (by
      have := Int.floor_le x
      rw [whole] at this
      exact_mod_cast this)
    rw [same, roundHalfEven_natCast]

theorem encodeMagnitude_subnormal {m : ℕ} (h : m < 2 ^ 23) :
    encodeMagnitude ((m : K) * pow2 (-149)) = m := by
  have small : (m : K) * pow2 (-149) < pow2 (-126) := scaled_lt h
  rw [encodeMagnitude, if_pos small, pow2_mul_cancel _ (by omega)]
  exact roundHalfEven_natCast m

theorem encodeMagnitude_normal {m : ℕ} {e : ℤ} (low : 2 ^ 23 ≤ m) (high : m < 2 ^ 24)
    (least : -126 ≤ e) :
    encodeMagnitude ((m : K) * pow2 (e - 23)) = (e + 126).toNat * 2 ^ 23 + m := by
  have above : (pow2 e : K) ≤ m * pow2 (e - 23) := by
    have := le_scaled (K := K) (e := e - 23) low
    rwa [show ((23 : ℕ) : ℤ) + (e - 23) = e by omega] at this
  have below : (m : K) * pow2 (e - 23) < pow2 (e + 1) := by
    have := scaled_lt (K := K) (e := e - 23) high
    rwa [show ((24 : ℕ) : ℤ) + (e - 23) = e + 1 by omega] at this
  have positive : (0 : K) < m * pow2 (e - 23) := (pow2_pos e).trans_le above
  have log : Int.log 2 ((m : K) * pow2 (e - 23)) = e := by
    have lower := (Int.zpow_le_iff_le_log one_lt_two positive).mp above
    have upper := (Int.lt_zpow_iff_log_lt one_lt_two positive).mp below
    omega
  have normal : ¬(m : K) * pow2 (e - 23) < pow2 (-126) := not_lt.mpr ((pow2_le least).trans above)
  simp only [encodeMagnitude, if_neg normal, log]
  rw [pow2_mul_cancel _ (by omega), roundHalfEven_natCast]

theorem encodeMagnitude_magnitude (n : ℕ) : encodeMagnitude (magnitude n : K) = n := by
  unfold magnitude
  split
  next small => exact encodeMagnitude_subnormal small
  next large =>
    have split : ((n / 2 ^ 23 : ℕ) : ℤ) - 150 = ((n / 2 ^ 23 : ℕ) : ℤ) - 127 - 23 := by omega
    rw [split, encodeMagnitude_normal (by omega) (by omega) (by omega)]
    omega

section Words

variable {n : ℕ}

omit [LinearOrder K] [FloorRing K] [IsStrictOrderedRing K] in
theorem decode_positive (h : n < infinityBits) :
    decode (BitVec.ofNat 32 n) = .fin (magnitude n : K) := by
  have size : (BitVec.ofNat 32 n).toNat = n := by
    simp only [infinityBits] at h
    simp only [BitVec.toNat_ofNat]
    omega
  have low : n % 2 ^ 31 = n := by
    simp only [infinityBits] at h
    omega
  have sign : ¬2 ^ 31 ≤ n := by
    simp only [infinityBits] at h
    omega
  simp only [decode, size, low, if_pos h, if_neg sign]

omit [LinearOrder K] [FloorRing K] [IsStrictOrderedRing K] in
theorem decode_negative (h : n < infinityBits) :
    decode (BitVec.ofNat 32 (2 ^ 31 + n)) = .fin (-magnitude n : K) := by
  have size : (BitVec.ofNat 32 (2 ^ 31 + n)).toNat = 2 ^ 31 + n := by
    simp only [infinityBits] at h
    simp only [BitVec.toNat_ofNat]
    omega
  have low : (2 ^ 31 + n) % 2 ^ 31 = n := by
    simp only [infinityBits] at h
    omega
  have sign : 2 ^ 31 ≤ 2 ^ 31 + n := Nat.le_add_right _ _
  simp only [decode, size, low, if_pos h, if_pos sign]

end Words

theorem round_of_abs {x : K} {n : ℕ} (h : n < infinityBits) (size : |x| = magnitude n) :
    round (.fin x) = some (.fin x) := by
  simp only [round, encode, size, encodeMagnitude_magnitude, if_pos h, Option.map_some]
  by_cases below : x < 0
  · rw [if_pos below, decode_negative h, ← size, abs_of_neg below, neg_neg]
  · rw [if_neg below, decode_positive h, ← size, abs_of_nonneg (not_lt.mp below)]

/-- Packing a number that the format has is exact. -/
theorem round_decode (w : BitVec 32) : round (decode w : Ieee K) = some (decode w) := by
  by_cases finite : w.toNat % 2 ^ 31 < infinityBits
  · simp only [decode, if_pos finite]
    apply round_of_abs finite
    have nonneg := magnitude_nonneg (K := K) (w.toNat % 2 ^ 31)
    split
    next => rw [abs_neg, abs_of_nonneg nonneg]
    next => exact abs_of_nonneg nonneg
  · simp only [decode, if_neg finite]
    split
    next => split <;> rfl
    next => rfl

theorem encodeMagnitude_lt {x : K} (nonneg : 0 ≤ x) (h : x < pow2 127) :
    encodeMagnitude x < infinityBits := by
  simp only [encodeMagnitude]
  split
  next small =>
    have scaled : x * pow2 149 ≤ ((2 ^ 23 : ℕ) : K) := by
      have below := mul_le_mul_of_nonneg_right small.le (pow2_pos (K := K) 149).le
      rwa [← pow2_add, show (-126 + 149 : ℤ) = (23 : ℕ) by norm_num, pow2_natCast] at below
    have rounded := roundHalfEven_le (mul_nonneg nonneg (pow2_pos 149).le) scaled
    simp only [infinityBits]
    omega
  next large =>
    have positive : 0 < x := (pow2_pos (-126)).trans_le (not_lt.mp large)
    have log : Int.log 2 x < 127 := (Int.lt_zpow_iff_log_lt one_lt_two positive).mp h
    have scaled : x * pow2 (23 - Int.log 2 x) ≤ ((2 ^ 24 : ℕ) : K) := by
      have above : x < pow2 (Int.log 2 x + 1) := Int.lt_zpow_succ_log_self one_lt_two x
      have below := mul_le_mul_of_nonneg_right above.le (pow2_pos (K := K) (23 - Int.log 2 x)).le
      rwa [← pow2_add, show Int.log 2 x + 1 + (23 - Int.log 2 x) = (24 : ℕ) by push_cast; omega,
        pow2_natCast] at below
    have rounded := roundHalfEven_le (mul_nonneg nonneg (pow2_pos _).le) scaled
    simp only [infinityBits]
    omega

theorem encode_isSome {x : K} (h : |x| < pow2 127) : (encode (.fin x)).isSome := by
  simp only [encode, if_pos (encodeMagnitude_lt (abs_nonneg x) h), Option.isSome_some]

/-- A number below the overflow is cast to a number. -/
theorem cast_lt {x : K} (h : |x| < pow2 127) :
    (cast (.fin x)).toNat % 2 ^ 31 < infinityBits := by
  have bound := encodeMagnitude_lt (abs_nonneg x) h
  simp only [cast, encode, if_pos bound, Option.getD_some, BitVec.toNat_ofNat]
  simp only [infinityBits] at bound ⊢
  split <;> omega

omit [LinearOrder K] [FloorRing K] [IsStrictOrderedRing K] in
theorem decode_zero : decode 0#32 = (.fin 0 : Ieee K) := by
  simp [decode, infinityBits, magnitude]

theorem round_zero : round (.fin 0 : Ieee K) = some (.fin 0) := by
  rw [← decode_zero, round_decode]

end RoundTrip

end Binary32
