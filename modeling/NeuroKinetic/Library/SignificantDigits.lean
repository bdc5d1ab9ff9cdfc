import NeuroKinetic.Library.OutputStream
import Mathlib.Algebra.Order.Field.Power

/-! Rounding to a number of significant digits, and the value that a printed number has
for who reads it. -/

open Binary32 Json OutputStream

namespace SignificantDigits

section Rounding

variable {K : Type} [Field K] [LinearOrder K] [FloorRing K]

/-- A magnitude, to so many digits after its first one. -/
def roundTo (base after : ℕ) (x : K) : K :=
  let e := Int.log base x
  (roundHalfEven (x * (base : K) ^ ((after : ℤ) - e)) : K) * (base : K) ^ (e - after)

variable [IsStrictOrderedRing K]

theorem roundHalfEven_near {x : K} (nonneg : 0 ≤ x) :
    |(roundHalfEven x : K) - x| * ((2 : ℕ) : K) ≤ 1 := by
  have whole : ((⌊x⌋.toNat : ℕ) : K) = (⌊x⌋ : K) := by
    rw [← Int.cast_natCast, Int.toNat_of_nonneg (Int.floor_nonneg.mpr nonneg)]
  have low := Int.floor_le x
  have high := Int.lt_floor_add_one x
  have half : |(roundHalfEven x : K) - x| ≤ 1 / 2 := by
    rw [roundHalfEven]
    simp only [whole]
    split_ifs <;> push_cast <;> rw [whole, abs_le] <;> constructor <;> linarith
  rw [Nat.cast_ofNat]
  linarith

theorem roundTo_nonneg (base after : ℕ) (x : K) : 0 ≤ roundTo base after x :=
  mul_nonneg (Nat.cast_nonneg _) (zpow_nonneg (Nat.cast_nonneg _) _)

/-- The error is at most half a unit in the last digit, relative to the number. -/
theorem roundTo_near {base : ℕ} (large : 1 < base) (after : ℕ) {x : K} (nonneg : 0 ≤ x) :
    |roundTo base after x - x| * (((2 : ℕ) : K) * (base : K) ^ after) ≤ x := by
  have positive : (0 : K) < base := Nat.cast_pos.mpr (by omega)
  rcases nonneg.lt_or_eq with some | rfl
  · have power := Int.zpow_log_le_self large some
    have unit : (base : K) ^ ((after : ℤ) - Int.log base x) *
        (base : K) ^ (Int.log base x - after) = 1 := by
      rw [← zpow_add₀ positive.ne', sub_add_sub_cancel, sub_self, zpow_zero]
    have scale : (base : K) ^ (Int.log base x - after) * (base : K) ^ after =
        (base : K) ^ Int.log base x := by
      rw [← zpow_natCast, ← zpow_add₀ positive.ne', sub_add_cancel]
    have step : 0 < (base : K) ^ (Int.log base x - after) := zpow_pos positive _
    have moved : roundTo base after x - x =
        ((roundHalfEven (x * (base : K) ^ ((after : ℤ) - Int.log base x)) : K) -
          x * (base : K) ^ ((after : ℤ) - Int.log base x)) *
            (base : K) ^ (Int.log base x - after) := by
      rw [sub_mul, mul_assoc x, unit, mul_one]
      rfl
    have near := roundHalfEven_near (mul_nonneg nonneg
      (zpow_nonneg positive.le ((after : ℤ) - Int.log base x)))
    calc |roundTo base after x - x| * (((2 : ℕ) : K) * (base : K) ^ after)
        = |(roundHalfEven (x * (base : K) ^ ((after : ℤ) - Int.log base x)) : K) -
            x * (base : K) ^ ((after : ℤ) - Int.log base x)| *
            ((2 : ℕ) : K) * ((base : K) ^ (Int.log base x - after) * (base : K) ^ after) := by
          rw [moved, abs_mul, abs_of_pos step]
          ring
      _ ≤ 1 * ((base : K) ^ (Int.log base x - after) * (base : K) ^ after) :=
          mul_le_mul_of_nonneg_right near (scale ▸ (zpow_pos positive _).le)
      _ = (base : K) ^ Int.log base x := by
          rw [one_mul, scale]
      _ ≤ x := power
  · have zero : roundTo base after (0 : K) = 0 := by
      have none := roundHalfEven_natCast (K := K) 0
      rw [Nat.cast_zero] at none
      rw [roundTo, zero_mul, none, Nat.cast_zero, zero_mul]
    rw [zero, sub_zero, abs_zero, zero_mul]

end Rounding

section Values

/-- The text of a number without a sign, and its value. -/
def Denotes (text : List Char) (x : ℚ) : Prop :=
  ∃ whole frac after exp e, text = whole ++ (frac ++ exp) ∧ Whole whole ∧ Fraction frac after ∧
    Exponent exp e ∧ (Nat.ofDigitChars 10 (whole ++ after) 0 : ℚ) * 10 ^ (e - after.length) = x

theorem denotes_toDigits (n : ℕ) : Denotes (Nat.toDigits 10 n) n := by
  refine ⟨_, [], [], [], 0, ?_, whole_toDigits n, .none, .none, ?_⟩
  · rw [List.append_nil, List.append_nil]
  · rw [List.append_nil, Nat.ofDigitChars_ten_toDigits, List.length_nil, Nat.cast_zero, sub_zero,
      zpow_zero, mul_one]

/-- Nothing but digits and the signs of a number. -/
theorem Denotes.mem {text : List Char} {x : ℚ} (h : Denotes text x) {c : Char} (member : c ∈ text) :
    c.isDigit ∨ c ∈ ['.', 'e', '-', '+'] := by
  obtain ⟨whole, frac, after, exp, e, rfl, isWhole, isFraction, isExponent, _⟩ := h
  rcases List.mem_append.mp member with digit | member
  · exact Or.inl (isWhole.run.2 c digit)
  rcases List.mem_append.mp member with inFraction | inExponent
  · cases isFraction with
    | none => cases inFraction
    | some run =>
      rcases List.mem_cons.mp inFraction with rfl | digit
      · exact Or.inr (by decide)
      · exact Or.inl (run.2 c digit)
  · cases isExponent with
    | none => cases inExponent
    | negative run =>
      rcases List.mem_cons.mp inExponent with rfl | later
      · exact Or.inr (by decide)
      · rcases List.mem_cons.mp later with rfl | digit
        · exact Or.inr (by decide)
        · exact Or.inl (run.2 c digit)
    | positive run =>
      rcases List.mem_cons.mp inExponent with rfl | later
      · exact Or.inr (by decide)
      · rcases List.mem_cons.mp later with rfl | digit
        · exact Or.inr (by decide)
        · exact Or.inl (run.2 c digit)

theorem stripZeros_append (digits : List Char) :
    ∃ k, stripZeros digits ++ List.replicate k '0' = digits := by
  have split := List.takeWhile_append_dropWhile (p := (· = '0')) (l := digits.reverse)
  have zeros := List.eq_replicate_of_mem fun c member =>
    of_decide_eq_true (List.mem_takeWhile_imp (p := (· = '0')) (l := digits.reverse) (x := c) member)
  refine ⟨(digits.reverse.takeWhile (· = '0')).length, ?_⟩
  have whole := congrArg List.reverse split
  rw [zeros, List.reverse_append, List.reverse_replicate, List.reverse_reverse] at whole
  exact whole

/-- What is stripped does not count. -/
theorem Denotes.pointed {whole digits exp : List Char} {e : ℤ} (isWhole : Whole whole)
    (all : ∀ c ∈ digits, c.isDigit) (isExponent : Exponent exp e) :
    Denotes (whole ++ (pointed digits ++ exp))
      ((Nat.ofDigitChars 10 (whole ++ digits) 0 : ℚ) * 10 ^ (e - digits.length)) := by
  obtain ⟨k, text⟩ := stripZeros_append digits
  have kept : ∀ c ∈ stripZeros digits, c.isDigit := fun c member =>
    all c (text ▸ List.mem_append_left _ member)
  have fraction : Fraction (OutputStream.pointed digits) (stripZeros digits) := by
    unfold OutputStream.pointed
    split
    next none =>
      rw [none]
      exact .none
    next some => exact .some ⟨some, kept⟩
  refine ⟨whole, _, _, exp, e, rfl, isWhole, fraction, isExponent, ?_⟩
  have length : (digits.length : ℤ) = (stripZeros digits).length + k := by
    rw [← Nat.cast_add, ← text, List.length_append, List.length_replicate, text]
  have value : Nat.ofDigitChars 10 (whole ++ digits) 0 =
      10 ^ k * Nat.ofDigitChars 10 (whole ++ stripZeros digits) 0 := by
    rw [← text, ← List.append_assoc, Nat.ofDigitChars_append, Nat.ofDigitChars_replicate_zero, text]
  have shift : (10 : ℚ) ^ (e - (stripZeros digits).length) = 10 ^ k * 10 ^ (e - digits.length) := by
    rw [← zpow_natCast, ← zpow_add₀ (by norm_num), length]
    congr 1
    omega
  rw [value, Nat.cast_mul, Nat.cast_pow, Nat.cast_ofNat, shift]
  ring

theorem exponent_padded (e : ℤ) : Exponent ('e' :: (if e < 0 then '-' else '+') ::
    List.leftpad 2 '0' (Nat.toDigits 10 e.natAbs)) e := by
  have value : Nat.ofDigitChars 10 (List.leftpad 2 '0' (Nat.toDigits 10 e.natAbs)) 0 = e.natAbs := by
    rw [List.leftpad, Nat.ofDigitChars_append, Nat.ofDigitChars_replicate_zero, Nat.mul_zero,
      Nat.ofDigitChars_ten_toDigits]
  have digits : Digits (List.leftpad 2 '0' (Nat.toDigits 10 e.natAbs)) := by
    obtain ⟨some, all⟩ := digits_toDigits e.natAbs
    refine ⟨fun none => some (List.append_eq_nil_iff.mp none).2, fun c member => ?_⟩
    rcases List.mem_append.mp member with zero | digit
    · rw [List.eq_of_mem_replicate zero]
      decide
    · exact all c digit
  by_cases negative : e < 0
  · have exponent := Exponent.negative digits
    rw [value] at exponent
    rw [if_pos negative]
    rwa [show -(e.natAbs : ℤ) = e by omega] at exponent
  · have exponent := Exponent.positive digits
    rw [value] at exponent
    rw [if_neg negative]
    rwa [show (e.natAbs : ℤ) = e by omega] at exponent

/-- Six digits that are printed, and their power of ten. -/
theorem significant_value {x : ℚ} (positive : 0 < x) :
    (significant x).1.length = 6 ∧
      (Nat.ofDigitChars 10 (significant x).1 0 : ℚ) * 10 ^ ((significant x).2 - 5) =
        roundTo 10 5 x := by
  have ten : (1 : ℕ) < 10 := by decide
  have base : (((10 : ℕ) : ℚ)) = 10 := by norm_num
  have unit : (10 : ℚ) ^ (Int.log 10 x) * 10 ^ (5 - Int.log 10 x) = 10 ^ 5 := by
    rw [← zpow_add₀ (by norm_num), add_sub_cancel]
    norm_num
  have step : (0 : ℚ) < 10 ^ (5 - Int.log 10 x) := zpow_pos (by norm_num) _
  have low : ((10 ^ 5 : ℕ) : ℚ) ≤ x * 10 ^ (5 - Int.log 10 x) := by
    have power := Int.zpow_log_le_self ten positive
    rw [base] at power
    rw [Nat.cast_pow, base, ← unit]
    exact mul_le_mul_of_nonneg_right power step.le
  have high : x * 10 ^ (5 - Int.log 10 x) ≤ ((10 ^ 6 : ℕ) : ℚ) := by
    have power := (Int.lt_zpow_succ_log_self ten x).le
    rw [base, zpow_add_one₀ (by norm_num)] at power
    calc x * 10 ^ (5 - Int.log 10 x)
        ≤ (10 : ℚ) ^ Int.log 10 x * 10 * 10 ^ (5 - Int.log 10 x) :=
          mul_le_mul_of_nonneg_right power step.le
      _ = ((10 ^ 6 : ℕ) : ℚ) := by
          rw [mul_right_comm, unit]
          norm_num
  have least := le_roundHalfEven low
  have most := roundHalfEven_le (mul_nonneg positive.le step.le) high
  simp only [significant, roundTo, base, Nat.cast_ofNat]
  split
  next carried =>
    have six : (Nat.toDigits 10 (10 ^ 5)).length = 6 := by decide
    refine ⟨six, ?_⟩
    rw [Nat.ofDigitChars_ten_toDigits, carried, add_sub_right_comm, zpow_add_one₀ (by norm_num)]
    push_cast
    ring
  next fits =>
    rw [Nat.ofDigitChars_ten_toDigits]
    generalize roundHalfEven (x * (10 : ℚ) ^ (5 - Int.log 10 x)) = m at least most fits ⊢
    have atMost := Nat.length_toDigits_le_iff (n := m) (k := 6) ten (by decide)
    have atLeast := Nat.length_toDigits_le_iff (n := m) (k := 5) ten (by decide)
    refine ⟨?_, rfl⟩
    show (Nat.toDigits 10 m).length = 6
    omega

/-- A printed magnitude reads as the number, to six significant digits. -/
theorem formatMagnitude_denotes {x : ℚ} (nonneg : 0 ≤ x) :
    Denotes (formatMagnitude x) (roundTo 10 5 x) := by
  unfold formatMagnitude
  split
  next zero =>
    have near := roundTo_near (K := ℚ) (show 1 < 10 by decide) 5 le_rfl
    have none : roundTo 10 5 (0 : ℚ) = 0 := by
      have positive : (0 : ℚ) < ((2 : ℕ) : ℚ) * ((10 : ℕ) : ℚ) ^ 5 := by norm_num
      rw [sub_zero] at near
      exact abs_nonpos_iff.mp (nonpos_of_mul_nonpos_left near positive)
    rw [zero, none]
    exact denotes_toDigits 0
  next notZero =>
    have positive := lt_of_le_of_ne nonneg (Ne.symm notZero)
    obtain ⟨length, value⟩ := significant_value positive
    obtain ⟨run, head⟩ := significant_digits positive
    generalize significant x = pair at length value run head
    obtain ⟨digits, e⟩ := pair
    simp only at length value run head ⊢
    have later : ∀ k, ∀ c ∈ digits.drop k, c.isDigit := fun k c member =>
      run.2 c (List.mem_of_mem_drop member)
    split
    next =>
      have denotes := Denotes.pointed (whole_take run head 0) (later 1) (exponent_padded e)
      rw [List.take_append_drop, List.length_drop, length] at denotes
      exact value ▸ denotes
    next =>
      split
      next whole =>
        have denotes := Denotes.pointed (whole_take run head e.toNat) (later (e.toNat + 1)) .none
        have places : (0 : ℤ) - (digits.drop (e.toNat + 1)).length = e - 5 := by
          rw [List.length_drop, length]
          omega
        rw [List.take_append_drop, places, value] at denotes
        exact denotes
      next small =>
        have padded : ∀ c ∈ List.replicate (-e - 1).toNat '0' ++ digits, c.isDigit := by
          intro c member
          rcases List.mem_append.mp member with zero | digit
          · rw [List.eq_of_mem_replicate zero]
            decide
          · exact run.2 c digit
        have denotes := Denotes.pointed (whole_toDigits 0) padded .none
        have places : (0 : ℤ) - (List.replicate (-e - 1).toNat '0' ++ digits).length = e - 5 := by
          rw [List.length_append, List.length_replicate, length]
          omega
        have zeros : Nat.ofDigitChars 10 (Nat.toDigits 10 0 ++
            (List.replicate (-e - 1).toNat '0' ++ digits)) 0 = Nat.ofDigitChars 10 digits 0 := by
          rw [Nat.ofDigitChars_append, Nat.ofDigitChars_ten_toDigits, Nat.ofDigitChars_append,
            Nat.ofDigitChars_replicate_zero, Nat.mul_zero]
        rw [zeros, places, value] at denotes
        exact denotes

end Values

section Reading

/-- The value of a text that is a number and nothing else. -/
def readNumber (text : List Char) : Option ℚ :=
  match number text with
  | some (.number negative digits e, []) =>
    some ((if negative then -(digits : ℚ) else digits) * 10 ^ e)
  | _ => none

theorem readNumber_denotes (negative : Bool) {text : List Char} {x : ℚ} (h : Denotes text x) :
    readNumber (signText negative ++ text) = some (if negative then -x else x) := by
  obtain ⟨whole, frac, after, exp, e, rfl, isWhole, isFraction, isExponent, rfl⟩ := h
  have reads := unsignedNumber_reads negative isWhole isFraction isExponent []
    fun c head => by cases head
  rw [List.append_nil] at reads
  have signed : number (signText negative ++ (whole ++ (frac ++ exp))) =
      some (.number negative (Nat.ofDigitChars 10 (whole ++ after) 0) (e - after.length), []) := by
    cases negative with
    | true => exact reads
    | false =>
      obtain ⟨c, cs, rfl⟩ := List.exists_cons_of_ne_nil isWhole.run.1
      have digit : c ≠ '-' := digit_ne (isWhole.run.2 c List.mem_cons_self) (by decide)
      rw [signText, if_neg Bool.false_ne_true, List.nil_append, number.eq_def]
      split
      next same => exact absurd (List.cons.inj same).1 digit
      next => exact reads
  rw [readNumber, signed]
  cases negative with
  | true =>
    simp only [if_true]
    rw [neg_mul]
  | false => simp only [Bool.false_eq_true, if_false]

theorem readNumber_toDigits (n : ℕ) : readNumber (Nat.toDigits 10 n) = some (n : ℚ) :=
  readNumber_denotes false (denotes_toDigits n)

end Reading

end SignificantDigits
