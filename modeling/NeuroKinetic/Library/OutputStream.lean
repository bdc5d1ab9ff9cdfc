import NeuroKinetic.Library.Binary32
import NeuroKinetic.Library.JsonText
import Mathlib.Data.Rat.Floor

/-! What a C++ output stream prints for a number: whole numbers in decimal, floats
with six significant digits. -/

namespace OutputStream

def formatUint {bits : ℕ} (w : BitVec bits) : List Char := Nat.toDigits 10 w.toNat

/-- The six significant digits of a positive number, and the power of ten of the first. -/
def significant (x : ℚ) : List Char × ℤ :=
  let e := Int.log 10 x
  let m := Binary32.roundHalfEven (x * 10 ^ (5 - e))
  if m = 10 ^ 6 then (Nat.toDigits 10 (10 ^ 5), e + 1) else (Nat.toDigits 10 m, e)

def stripZeros (digits : List Char) : List Char := (digits.reverse.dropWhile (· = '0')).reverse

def pointed (digits : List Char) : List Char :=
  if stripZeros digits = [] then [] else '.' :: stripZeros digits

def formatMagnitude (x : ℚ) : List Char :=
  if x = 0 then ['0']
  else
    let (digits, e) := significant x
    if 6 ≤ e ∨ e < -4 then
      digits.take 1 ++ (pointed (digits.drop 1) ++ ('e' :: (if e < 0 then '-' else '+') ::
        List.leftpad 2 '0' (Nat.toDigits 10 e.natAbs)))
    else if 0 ≤ e then
      digits.take (e.toNat + 1) ++ (pointed (digits.drop (e.toNat + 1)) ++ [])
    else
      ['0'] ++ (pointed (List.replicate (-e - 1).toNat '0' ++ digits) ++ [])

def Finite (w : BitVec 32) : Prop := w.toNat % 2 ^ 31 < Binary32.infinityBits

instance (w : BitVec 32) : Decidable (Finite w) := inferInstanceAs (Decidable (_ < _))

def formatFloat (w : BitVec 32) : List Char :=
  let n := w.toNat % 2 ^ 31
  Json.signText (decide (2 ^ 31 ≤ w.toNat)) ++
    if n < Binary32.infinityBits then formatMagnitude (Binary32.magnitude n)
    else if n = Binary32.infinityBits then "inf".toList
    else "nan".toList

section Digits

open Json

theorem digits_toDigits (n : ℕ) : Digits (Nat.toDigits 10 n) :=
  ⟨Nat.toDigits_ne_nil, fun _ member => Nat.isDigit_of_mem_toDigits (by decide) (by decide) member⟩

/-- A positive number does not begin with a zero. -/
theorem head_toDigits {n : ℕ} (positive : 0 < n) : (Nat.toDigits 10 n).head? ≠ some '0' := by
  induction n using Nat.strongRecOn with
  | ind n ih =>
    by_cases single : n < 10
    · have digits : ∀ k < 10, 0 < k → [Nat.digitChar k].head? ≠ some '0' := by
        decide
      rw [Nat.toDigits_of_lt_base single]
      exact digits n single positive
    · have shorter := ih (n / 10) (by omega) (by omega)
      obtain ⟨c, cs, eq⟩ := List.exists_cons_of_ne_nil
        (Nat.toDigits_ne_nil (n := n / 10) (b := 10))
      rw [Nat.toDigits_of_base_le (by decide) (by omega), eq, List.cons_append]
      rw [eq] at shorter
      exact shorter

theorem whole_toDigits (n : ℕ) : Whole (Nat.toDigits 10 n) := by
  refine ⟨digits_toDigits n, fun zero => ?_⟩
  by_cases positive : 0 < n
  · exact absurd zero (head_toDigits positive)
  · obtain rfl : n = 0 := by omega
    rfl

theorem whole_take {digits : List Char} (h : Digits digits) (head : digits.head? ≠ some '0')
    (k : ℕ) : Whole (digits.take (k + 1)) := by
  obtain ⟨c, cs, rfl⟩ := List.exists_cons_of_ne_nil h.1
  rw [List.take_succ_cons]
  refine ⟨⟨List.cons_ne_nil _ _, fun d member => ?_⟩, fun zero => absurd zero head⟩
  rw [← List.take_succ_cons] at member
  exact h.2 d (List.mem_of_mem_take member)

theorem fraction_pointed {digits : List Char} (h : ∀ c ∈ digits, c.isDigit) :
    ∃ ds, Fraction (pointed digits) ds := by
  unfold pointed
  split
  next => exact ⟨[], .none⟩
  next some =>
    refine ⟨stripZeros digits, .some ⟨some, fun c member => h c ?_⟩⟩
    have kept := List.mem_reverse.mp member
    exact List.mem_reverse.mp ((List.dropWhile_sublist _).subset kept)

theorem exponent_leftpad (e : ℤ) :
    ∃ x, Exponent ('e' :: (if e < 0 then '-' else '+') ::
      List.leftpad 2 '0' (Nat.toDigits 10 e.natAbs)) x := by
  have digits : Digits (List.leftpad 2 '0' (Nat.toDigits 10 e.natAbs)) := by
    obtain ⟨some, all⟩ := digits_toDigits e.natAbs
    refine ⟨fun none => some (List.append_eq_nil_iff.mp none).2, fun c member => ?_⟩
    rcases List.mem_append.mp member with zero | digit
    · rw [List.eq_of_mem_replicate zero]
      decide
    · exact all c digit
  by_cases negative : e < 0
  · rw [if_pos negative]
    exact ⟨_, .negative digits⟩
  · rw [if_neg negative]
    exact ⟨_, .positive digits⟩

end Digits

section Numbers

open Json

theorem significant_digits {x : ℚ} (positive : 0 < x) :
    Digits (significant x).1 ∧ (significant x).1.head? ≠ some '0' := by
  have scaled : ((10 ^ 5 : ℕ) : ℚ) ≤ x * 10 ^ (5 - Int.log 10 x) := by
    have power : ((10 : ℕ) : ℚ) ^ Int.log 10 x ≤ x := Int.zpow_log_le_self (by decide) positive
    calc ((10 ^ 5 : ℕ) : ℚ) = ((10 : ℕ) : ℚ) ^ Int.log 10 x * 10 ^ (5 - Int.log 10 x) := by
          rw [Nat.cast_ofNat, ← zpow_add₀ (by norm_num), add_sub_cancel]
          norm_num
      _ ≤ x * 10 ^ (5 - Int.log 10 x) :=
          mul_le_mul_of_nonneg_right power (zpow_nonneg (by norm_num) _)
  have many := Binary32.le_roundHalfEven scaled
  have least : 0 < 10 ^ 5 := Nat.pow_pos (by decide)
  simp only [significant]
  split
  next => exact ⟨digits_toDigits (10 ^ 5), head_toDigits least⟩
  next => exact ⟨digits_toDigits _, head_toDigits (least.trans_le many)⟩

/-- A finite magnitude is printed as a number. -/
theorem formatMagnitude_number {x : ℚ} (nonneg : 0 ≤ x) :
    ∃ whole frac digits exp e, formatMagnitude x = whole ++ (frac ++ exp) ∧ Whole whole ∧
      Fraction frac digits ∧ Exponent exp e := by
  have zero : Whole ['0'] := whole_toDigits 0
  unfold formatMagnitude
  split
  next => exact ⟨['0'], [], [], [], 0, rfl, zero, .none, .none⟩
  next notZero =>
    obtain ⟨run, head⟩ := significant_digits (lt_of_le_of_ne nonneg (Ne.symm notZero))
    generalize significant x = pair at run head
    obtain ⟨digits, e⟩ := pair
    simp only at run head ⊢
    have rest : ∀ k, ∃ ds, Fraction (pointed (digits.drop k)) ds := fun k =>
      fraction_pointed fun c member => run.2 c (List.mem_of_mem_drop member)
    split
    next =>
      obtain ⟨ds, fraction⟩ := rest 1
      obtain ⟨value, exponent⟩ := exponent_leftpad e
      exact ⟨_, _, ds, _, value, rfl, whole_take run head 0, fraction, exponent⟩
    next =>
      split
      next =>
        obtain ⟨ds, fraction⟩ := rest (e.toNat + 1)
        exact ⟨_, _, ds, _, 0, rfl, whole_take run head _, fraction, .none⟩
      next =>
        have padded : ∀ c ∈ List.replicate (-e - 1).toNat '0' ++ digits, c.isDigit := by
          intro c member
          rcases List.mem_append.mp member with zero | digit
          · rw [List.eq_of_mem_replicate zero]
            decide
          · exact run.2 c digit
        obtain ⟨ds, fraction⟩ := fraction_pointed padded
        exact ⟨_, _, ds, _, 0, rfl, zero, fraction, .none⟩

theorem starts_number (negative : Bool) {whole : List Char} (isWhole : Whole whole)
    (rest : List Char) : Starts (signText negative ++ (whole ++ rest)) := by
  obtain ⟨c, cs, rfl⟩ := List.exists_cons_of_ne_nil isWhole.run.1
  have digit : c.isDigit := isWhole.run.2 c List.mem_cons_self
  cases negative with
  | true => exact ⟨'-', _, rfl, by decide⟩
  | false =>
    refine ⟨c, _, rfl, ?_⟩
    have space := digit_ne (d := ' ') digit (by decide)
    have line := digit_ne (d := '\n') digit (by decide)
    have tab := digit_ne (d := '\t') digit (by decide)
    have back := digit_ne (d := '\r') digit (by decide)
    simp [isSpace, space, line, tab, back]

/-- A finite float is read back as a number, by either parser. -/
theorem formatFloat_reads {words : List (List Char × Value)} (dialect : Dialect words)
    {w : BitVec 32} (finite : Finite w) (fuel : ℕ) :
    Starts (formatFloat w) ∧ ∃ v, Reads (value words (fuel + 1)) (formatFloat w) v := by
  obtain ⟨whole, frac, digits, exp, e, text, isWhole, isFraction, isExponent⟩ :=
    formatMagnitude_number (Binary32.magnitude_nonneg (K := ℚ) (w.toNat % 2 ^ 31))
  rw [Finite] at finite
  simp only [formatFloat, if_pos finite, text]
  exact ⟨starts_number _ isWhole _, _, value_number dialect _ isWhole isFraction isExponent⟩

theorem formatFloat_nonFinite {w : BitVec 32} (h : ¬Finite w) : formatFloat w ∈ nonFiniteTexts := by
  rw [Finite] at h
  simp only [formatFloat, if_neg h, signText, nonFiniteTexts]
  split <;> split <;> simp

/-- A whole number is read back as itself. -/
theorem formatUint_value {words : List (List Char × Value)} (dialect : Dialect words) {bits : ℕ}
    (w : BitVec bits) (fuel : ℕ) : Starts (formatUint w) ∧
      Reads (value words (fuel + 1)) (formatUint w) (.number false w.toNat 0) := by
  have starts := starts_number false (whole_toDigits w.toNat) ([] ++ [])
  have reads : Reads (value words (fuel + 1))
      (signText false ++ (Nat.toDigits 10 w.toNat ++ ([] ++ []))) _ :=
    value_number dialect false (whole_toDigits w.toNat) .none .none
  simp only [signText, Bool.false_eq_true, if_false, List.append_nil, List.nil_append,
    Nat.ofDigitChars_ten_toDigits, List.length_nil, Nat.cast_zero, sub_zero] at reads starts
  exact ⟨starts, reads⟩

theorem formatUint_reads {words : List (List Char × Value)} (dialect : Dialect words) {bits : ℕ}
    (w : BitVec bits) (fuel : ℕ) :
    Starts (formatUint w) ∧ ∃ v, Reads (value words (fuel + 1)) (formatUint w) v := by
  obtain ⟨starts, reads⟩ := formatUint_value dialect w fuel
  exact ⟨starts, _, reads⟩

end Numbers

end OutputStream
