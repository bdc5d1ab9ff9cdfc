import Mathlib.Algebra.Order.Field.Basic
import Mathlib.Algebra.Order.Field.Rat
import Mathlib.Algebra.Order.Ring.Defs

/-- Floating-point data with exact finite arithmetic: a finite value, one of the
two infinities, or the unordered value. Zeros carry no sign. -/
inductive Ieee (K : Type) where
  | fin (x : K)
  | posInf
  | negInf
  | nan
  deriving DecidableEq, Repr

/-- The three-way clamp of the C++ library: both tests are strict, so an
unordered value falls through to itself. -/
def stdClamp {α : Type} [LT α] [DecidableLT α] (v lo hi : α) : α :=
  if v < lo then lo else if hi < v then hi else v

/-- The products of floats and of doubles, supplied with the roundings of the machine. -/
class RoundedMul (K : Type) where
  single : Ieee K → Ieee K → Ieee K
  double : Ieee K → Ieee K → Ieee K

/-- The square root of exact arithmetic, supplied by the number type. -/
class SquareRoot (K : Type) where
  sqrt : K → K

class LawfulSquareRoot (K : Type) [Field K] [LinearOrder K] [SquareRoot K] : Prop where
  sqrt_nonneg : ∀ x : K, 0 ≤ x → 0 ≤ SquareRoot.sqrt x
  mul_self_sqrt : ∀ x : K, 0 ≤ x → SquareRoot.sqrt x * SquareRoot.sqrt x = x

theorem LawfulSquareRoot.sqrt_lt {K : Type} [Field K] [LinearOrder K] [IsStrictOrderedRing K]
    [SquareRoot K] [LawfulSquareRoot K] {x y : K} (hx : 0 ≤ x) (hy : 0 < y) (h : x < y * y) :
    SquareRoot.sqrt x < y := by
  by_contra big
  have square := mul_self_le_mul_self hy.le (not_lt.mp big)
  rw [LawfulSquareRoot.mul_self_sqrt x hx] at square
  exact absurd h (not_lt.mpr square)

theorem LawfulSquareRoot.lt_sqrt_iff {K : Type} [Field K] [LinearOrder K] [IsStrictOrderedRing K]
    [SquareRoot K] [LawfulSquareRoot K] {x y : K} (hx : 0 ≤ x) (hy : 0 < y) :
    y < SquareRoot.sqrt x ↔ y * y < x := by
  have square := LawfulSquareRoot.mul_self_sqrt x hx
  constructor
  · intro h
    rw [← square]
    exact mul_self_lt_mul_self hy.le h
  · intro h
    rw [← square] at h
    exact lt_of_mul_self_lt_mul_self₀ (LawfulSquareRoot.sqrt_nonneg x hx) h

namespace Ieee

variable {K : Type}

def toFinite? : Ieee K → Option K
  | fin x => some x
  | _ => none

def allFinite? {n : Nat} [Zero K] (v : Fin n → Ieee K) : Option (Fin n → K) :=
  if ∀ i, (v i).toFinite?.isSome then some (fun i => (v i).toFinite?.getD 0) else none

theorem allFinite?_fin {n : Nat} [Zero K] (x : Fin n → K) :
    allFinite? (fun i => fin (x i)) = some x := by
  simp [allFinite?, toFinite?]

theorem allFinite?_cases {n : Nat} [Zero K] (v : Fin n → Ieee K) :
    (∃ x : Fin n → K, v = fun i => fin (x i)) ∨ allFinite? v = none := by
  by_cases finite : ∀ i, (v i).toFinite?.isSome
  · left
    refine ⟨fun i => (v i).toFinite?.getD 0, funext fun i => ?_⟩
    change v i = fin ((v i).toFinite?.getD 0)
    have value := finite i
    generalize v i = x at value ⊢
    cases x with
    | fin x => rfl
    | _ => cases value
  · exact Or.inr (if_neg finite)

theorem exists_fin_iff {n : Nat} [Zero K] (v : Fin n → Ieee K) :
    (∃ x : Fin n → K, v = fun i => fin (x i)) ↔ ∀ i, (v i).toFinite?.isSome := by
  constructor
  · rintro ⟨x, rfl⟩ i
    rfl
  · intro finite
    rcases allFinite?_cases v with held | none
    · exact held
    · rw [allFinite?, if_pos finite] at none
      cases none

section Order

variable [LinearOrder K]

def less : Ieee K → Ieee K → Bool
  | fin x, fin y => decide (x < y)
  | negInf, fin _ | negInf, posInf | fin _, posInf => true
  | _, _ => false

def lessEq : Ieee K → Ieee K → Bool
  | fin x, fin y => decide (x ≤ y)
  | negInf, fin _ | negInf, posInf | fin _, posInf | negInf, negInf | posInf, posInf => true
  | _, _ => false

instance : LT (Ieee K) := ⟨fun a b => less a b = true⟩

instance : LE (Ieee K) := ⟨fun a b => lessEq a b = true⟩

instance : DecidableLT (Ieee K) := fun a b => inferInstanceAs (Decidable (less a b = true))

instance : DecidableLE (Ieee K) := fun a b => inferInstanceAs (Decidable (lessEq a b = true))

@[simp] theorem fin_lt_fin {x y : K} : (fin x < fin y) ↔ x < y := decide_eq_true_iff

@[simp] theorem fin_le_fin {x y : K} : (fin x ≤ fin y) ↔ x ≤ y := decide_eq_true_iff

@[simp] theorem not_nan_lt (a : Ieee K) : ¬nan < a := by
  cases a <;> exact Bool.false_ne_true

@[simp] theorem not_lt_nan (a : Ieee K) : ¬a < nan := by
  cases a <;> exact Bool.false_ne_true

end Order

section Additive

variable [Field K]

protected def neg : Ieee K → Ieee K
  | fin x => fin (-x)
  | posInf => negInf
  | negInf => posInf
  | nan => nan

protected def add : Ieee K → Ieee K → Ieee K
  | fin x, fin y => fin (x + y)
  | nan, _ | _, nan | posInf, negInf | negInf, posInf => nan
  | posInf, _ | _, posInf => posInf
  | negInf, _ | _, negInf => negInf

instance : Neg (Ieee K) := ⟨Ieee.neg⟩

instance : Add (Ieee K) := ⟨Ieee.add⟩

instance : Sub (Ieee K) := ⟨fun a b => a + -b⟩

@[simp] theorem nan_add (a : Ieee K) : nan + a = nan := by
  cases a <;> rfl

@[simp] theorem add_nan (a : Ieee K) : a + nan = nan := by
  cases a <;> rfl

@[simp] theorem nan_sub (a : Ieee K) : nan - a = nan := nan_add (-a)

@[simp] theorem sub_nan (a : Ieee K) : a - nan = nan := add_nan a

@[simp] theorem fin_add_fin (x y : K) : fin x + fin y = fin (x + y) := rfl

@[simp] theorem fin_sub_fin (x y : K) : fin x - fin y = fin (x - y) := by
  change fin (x + -y) = fin (x - y)
  rw [sub_eq_add_neg]

end Additive

section Multiplicative

variable [Field K] [LinearOrder K]

/-- The infinity with the sign of a nonzero finite value; a zero has none. -/
def infinityOf (x : K) : Ieee K :=
  if 0 < x then posInf else if x < 0 then negInf else nan

protected def mul : Ieee K → Ieee K → Ieee K
  | fin x, fin y => fin (x * y)
  | nan, _ | _, nan => nan
  | posInf, posInf | negInf, negInf => posInf
  | posInf, negInf | negInf, posInf => negInf
  | posInf, fin y => infinityOf y
  | negInf, fin y => infinityOf (-y)
  | fin x, posInf => infinityOf x
  | fin x, negInf => infinityOf (-x)

protected def div : Ieee K → Ieee K → Ieee K
  | fin x, fin y => if y = 0 then infinityOf x else fin (x / y)
  | fin _, posInf | fin _, negInf => fin 0
  | posInf, fin y => if y < 0 then negInf else posInf
  | negInf, fin y => if y < 0 then posInf else negInf
  | _, _ => nan

instance : Mul (Ieee K) := ⟨Ieee.mul⟩

instance : Div (Ieee K) := ⟨Ieee.div⟩

@[simp] theorem nan_mul (a : Ieee K) : nan * a = nan := by
  cases a <;> rfl

@[simp] theorem fin_mul_fin (x y : K) : fin x * fin y = fin (x * y) := rfl

theorem fin_div_fin (x : K) {y : K} (h : y ≠ 0) : fin x / fin y = fin (x / y) := if_neg h

protected def abs : Ieee K → Ieee K
  | fin x => fin |x|
  | posInf | negInf => posInf
  | nan => nan

section SquareRoot

variable [SquareRoot K]

protected def sqrt : Ieee K → Ieee K
  | fin x => if x < 0 then nan else fin (SquareRoot.sqrt x)
  | posInf => posInf
  | _ => nan

@[simp] theorem sqrt_nan : (nan : Ieee K).sqrt = nan := rfl

theorem sqrt_fin {x : K} (h : 0 ≤ x) : (fin x).sqrt = fin (SquareRoot.sqrt x) :=
  if_neg (not_lt.mpr h)

end SquareRoot

end Multiplicative

end Ieee

section Clamp

variable {α : Type} [LinearOrder α] {v lo hi c : α}

theorem stdClamp_eq_max_min (h : lo ≤ hi) : stdClamp v lo hi = max lo (min hi v) := by
  unfold stdClamp
  split
  next hv => rw [min_eq_right (hv.le.trans h), max_eq_left hv.le]
  next hv =>
    have low := not_lt.mp hv
    split
    next hh => rw [min_eq_left hh.le, max_eq_right h]
    next hh => rw [min_eq_right (not_lt.mp hh), max_eq_right low]

theorem le_stdClamp (h : lo ≤ hi) : lo ≤ stdClamp v lo hi := by
  rw [stdClamp_eq_max_min h]
  exact le_max_left _ _

theorem stdClamp_le (h : lo ≤ hi) : stdClamp v lo hi ≤ hi := by
  rw [stdClamp_eq_max_min h]
  exact max_le h (min_le_left _ _)

theorem stdClamp_le_of_le (order : lo ≤ hi) (h : v ≤ c) (hc : lo ≤ c) : stdClamp v lo hi ≤ c := by
  rw [stdClamp_eq_max_min order]
  exact max_le hc ((min_le_right _ _).trans h)

theorem le_stdClamp_of_le (order : lo ≤ hi) (h : c ≤ v) (hc : c ≤ hi) : c ≤ stdClamp v lo hi := by
  rw [stdClamp_eq_max_min order]
  exact le_max_of_le_right (le_min hc h)

theorem stdClamp_of_mem (hlo : lo ≤ v) (hhi : v ≤ hi) : stdClamp v lo hi = v := by
  unfold stdClamp
  rw [if_neg (not_lt.mpr hlo), if_neg (not_lt.mpr hhi)]

theorem stdClamp_neg {K : Type} [Field K] [LinearOrder K] [IsStrictOrderedRing K] {v b : K}
    (hb : 0 ≤ b) : stdClamp (-v) (-b) b = -stdClamp v (-b) b := by
  have order : -b ≤ b := neg_le_self hb
  rw [stdClamp_eq_max_min order, stdClamp_eq_max_min order]
  rcases le_total v (-b) with low | low
  · rw [min_eq_right (low.trans order), max_eq_left low, min_eq_left (le_neg.mp low),
      max_eq_right order, neg_neg]
  · rcases le_total v b with high | high
    · rw [min_eq_right high, max_eq_right low, min_eq_right (neg_le.mp low),
        max_eq_right (neg_le_neg high)]
    · rw [min_eq_left high, max_eq_right order, min_eq_right ((neg_le_neg high).trans order),
        max_eq_left (neg_le_neg high)]

section Distance

variable {K : Type} [Field K] [LinearOrder K] [IsStrictOrderedRing K] {v lo hi c : K}

/-- A clamp brings every value closer to the points of its interval. -/
theorem abs_stdClamp_sub_le (hlo : lo ≤ c) (hhi : c ≤ hi) : |stdClamp v lo hi - c| ≤ |v - c| := by
  rw [stdClamp_eq_max_min (hlo.trans hhi)]
  rcases le_total v c with below | above
  · have low : v ≤ max lo (min hi v) := le_max_of_le_right (le_min (below.trans hhi) le_rfl)
    have high : max lo (min hi v) ≤ c := max_le hlo ((min_le_right _ _).trans below)
    rw [abs_of_nonpos (sub_nonpos.mpr high), abs_of_nonpos (sub_nonpos.mpr below)]
    exact neg_le_neg (sub_le_sub_right low c)
  · have low : c ≤ max lo (min hi v) := le_max_of_le_right (le_min hhi above)
    have high : max lo (min hi v) ≤ v := max_le (hlo.trans above) (min_le_right _ _)
    rw [abs_of_nonneg (sub_nonneg.mpr low), abs_of_nonneg (sub_nonneg.mpr above)]
    exact sub_le_sub_right high c

/-- A value that misses the interval by little is moved by little. -/
theorem abs_sub_stdClamp_le {tol : K} (order : lo ≤ hi) (htol : 0 ≤ tol) (low : lo - tol ≤ v)
    (high : v ≤ hi + tol) : |v - stdClamp v lo hi| ≤ tol := by
  rw [abs_le, stdClamp_eq_max_min order]
  constructor
  · have top : max lo (min hi v) ≤ v + tol :=
      max_le (sub_le_iff_le_add.mp low) ((min_le_right _ _).trans (le_add_of_nonneg_right htol))
    exact neg_le_sub_iff_le_add.mpr top
  · have bottom : v - tol ≤ max lo (min hi v) :=
      le_max_of_le_right (le_min (sub_le_iff_le_add.mpr high) (sub_le_self v htol))
    exact sub_le_comm.mp bottom

/-- A clamp does not enlarge an excess. -/
theorem stdClamp_le_add {w tol : K} (order : lo ≤ hi) (htol : 0 ≤ tol) (h : v ≤ w + tol) :
    stdClamp v lo hi ≤ stdClamp w lo hi + tol := by
  have low : lo ≤ stdClamp w lo hi := le_stdClamp order
  rw [stdClamp_eq_max_min order]
  refine max_le (low.trans (le_add_of_nonneg_right htol)) ?_
  rw [stdClamp_eq_max_min order, ← max_add_add_right, ← min_add_add_right]
  exact le_max_of_le_right (min_le_min (le_add_of_nonneg_right htol) h)

theorem stdClamp_mono {w : K} (order : lo ≤ hi) (h : v ≤ w) :
    stdClamp v lo hi ≤ stdClamp w lo hi := by
  simpa using stdClamp_le_add order le_rfl (show v ≤ w + 0 by rwa [add_zero])

end Distance

end Clamp

/-- Products that do not round. -/
class ExactMul (K : Type) [Field K] [LinearOrder K] extends RoundedMul K where
  single_eq : ∀ x y : Ieee K, single x y = x * y
  double_eq : ∀ x y : Ieee K, double x y = x * y

instance exactRationals : ExactMul ℚ where
  single x y := x * y
  double x y := x * y
  single_eq _ _ := rfl
  double_eq _ _ := rfl
