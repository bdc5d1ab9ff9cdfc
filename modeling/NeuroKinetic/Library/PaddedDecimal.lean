import Mathlib.Algebra.Group.Nat.Defs
import Mathlib.Data.List.Basic

/-! Decimals padded with zeros to a fixed width, and their lexicographic order. -/

namespace PaddedDecimal

section Order

variable {α : Type} [Ord α]

theorem compare_append_left [Std.ReflOrd α] (common : List α) (xs ys : List α) :
    compare (common ++ xs) (common ++ ys) = compare xs ys := by
  induction common with
  | nil => rfl
  | cons x rest ih =>
    rw [List.cons_append, List.cons_append, List.compare_cons_cons, Std.ReflOrd.compare_self,
      Ordering.eq_then]
    exact ih

theorem compare_concat {xs ys : List α} (length : xs.length = ys.length) (a b : α) :
    compare (xs ++ [a]) (ys ++ [b]) = (compare xs ys).then (compare a b) := by
  induction xs generalizing ys with
  | nil =>
    rw [List.length_nil, eq_comm, List.length_eq_zero_iff] at length
    subst length
    rw [List.nil_append, List.nil_append, List.compare_cons_cons, List.compare_nil_nil,
      Ordering.then_eq, Ordering.eq_then]
  | cons x xs ih =>
    cases ys with
    | nil => cases length
    | cons y ys =>
      rw [List.cons_append, List.cons_append, List.compare_cons_cons, List.compare_cons_cons,
        ih (Nat.succ.inj length), Ordering.then_assoc]

end Order

/-- The last `width` decimal digits, the most significant one first. -/
def digits {α : Type} (digit : ℕ → α) : ℕ → ℕ → List α
  | 0, _ => []
  | width + 1, n => digits digit width (n / 10) ++ [digit (n % 10)]

section Digits

variable {α β : Type} (digit : ℕ → α)

@[simp] theorem length_digits (width n : ℕ) : (digits digit width n).length = width := by
  induction width generalizing n with
  | zero => rfl
  | succ width ih => simp [digits, ih]

theorem map_digits (f : α → β) (width n : ℕ) :
    (digits digit width n).map f = digits (fun d => f (digit d)) width n := by
  induction width generalizing n with
  | zero => rfl
  | succ width ih => simp [digits, ih]

theorem mem_digits {width n : ℕ} {x : α} (member : x ∈ digits digit width n) :
    ∃ d < 10, x = digit d := by
  induction width generalizing n with
  | zero => cases member
  | succ width ih =>
    rcases List.mem_append.mp member with high | last
    · exact ih high
    · exact ⟨n % 10, Nat.mod_lt n (by decide), List.mem_singleton.mp last⟩

theorem compare_div_mod (n m : ℕ) :
    compare n m = (compare (n / 10) (m / 10)).then (compare (n % 10) (m % 10)) := by
  rcases Nat.lt_trichotomy (n / 10) (m / 10) with lt | eq | gt
  · rw [Nat.compare_eq_lt.mpr lt, Nat.compare_eq_lt.mpr (by omega)]
    rfl
  · rw [Nat.compare_eq_eq.mpr eq, Ordering.eq_then]
    rcases Nat.lt_trichotomy (n % 10) (m % 10) with lt | same | gt
    · rw [Nat.compare_eq_lt.mpr lt, Nat.compare_eq_lt.mpr (by omega)]
    · rw [Nat.compare_eq_eq.mpr same, Nat.compare_eq_eq.mpr (by omega)]
    · rw [Nat.compare_eq_gt.mpr gt, Nat.compare_eq_gt.mpr (by omega)]
  · rw [Nat.compare_eq_gt.mpr gt, Nat.compare_eq_gt.mpr (by omega)]
    rfl

/-- Where the digits are ordered like their values, so are whole decimals of one width. -/
theorem compare_digits [Ord α]
    (ordered : ∀ a b, a < 10 → b < 10 → compare (digit a) (digit b) = compare a b) {width : ℕ} :
    ∀ {n m : ℕ}, n < 10 ^ width → m < 10 ^ width →
      compare (digits digit width n) (digits digit width m) = compare n m := by
  induction width with
  | zero =>
    intro n m hn hm
    obtain rfl : n = 0 := by simpa using hn
    obtain rfl : m = 0 := by simpa using hm
    rfl
  | succ width ih =>
    intro n m hn hm
    have high : ∀ {k}, k < 10 ^ (width + 1) → k / 10 < 10 ^ width := by
      intro k bound
      rw [Nat.pow_succ] at bound
      omega
    rw [digits, digits, compare_concat (by simp), ih (high hn) (high hm),
      ordered _ _ (Nat.mod_lt _ (by decide)) (Nat.mod_lt _ (by decide)), ← compare_div_mod]

end Digits

theorem digits_zero (width : ℕ) : digits Nat.digitChar width 0 = List.replicate width '0' := by
  induction width with
  | zero => rfl
  | succ width ih =>
    rw [digits, ih, List.replicate_succ']
    rfl

/-- Padding on the left with zeros up to a width gives that many digits. -/
theorem leftpad_toDigits {width n : ℕ} (h : n < 10 ^ (width + 1)) :
    List.leftpad (width + 1) '0' (Nat.toDigits 10 n) = digits Nat.digitChar (width + 1) n := by
  induction width generalizing n with
  | zero =>
    have single : n < 10 := by
      rwa [Nat.zero_add, Nat.pow_one] at h
    rw [Nat.toDigits_of_lt_base single, digits, Nat.mod_eq_of_lt single]
    rfl
  | succ width ih =>
    by_cases single : n < 10
    · rw [Nat.toDigits_of_lt_base single, digits, Nat.mod_eq_of_lt single,
        Nat.div_eq_of_lt single, digits_zero]
      rfl
    · have high : n / 10 < 10 ^ (width + 1) := by
        rw [Nat.pow_succ] at h
        omega
      rw [Nat.toDigits_of_base_le (by decide) (by omega), digits, ← ih high]
      simp only [List.leftpad, List.length_append, List.length_singleton, Nat.add_sub_add_right,
        List.append_assoc]

end PaddedDecimal
