import NeuroKinetic.Library.Ieee
import Mathlib.Data.List.Perm.Basic

namespace Ieee

variable {K : Type} [LinearOrder K]

theorem ne_nan_of_lt {a b : Ieee K} (h : a < b) : a ≠ nan := by
  rintro rfl
  exact not_nan_lt b h

protected theorem lt_trans {a b c : Ieee K} (hab : a < b) (hbc : b < c) : a < c := by
  cases b with
  | fin y =>
    cases a with
    | fin x =>
      cases c with
      | fin z => exact fin_lt_fin.mpr ((fin_lt_fin.mp hab).trans (fin_lt_fin.mp hbc))
      | posInf => rfl
      | _ => cases hbc
    | negInf =>
      cases c with
      | fin z => rfl
      | posInf => rfl
      | _ => cases hbc
    | _ => cases hab
  | posInf => cases c <;> cases hbc
  | negInf => cases a <;> cases hab
  | nan => exact absurd hab (not_lt_nan a)

protected theorem lt_irrefl (a : Ieee K) : ¬a < a := by
  cases a with
  | fin x => simp
  | _ => exact Bool.false_ne_true

/-- Only the NaN is outside the order. -/
theorem lt_or_eq_or_lt {a b : Ieee K} (ha : a ≠ nan) (hb : b ≠ nan) : a < b ∨ a = b ∨ b < a := by
  cases a with
  | fin x =>
    cases b with
    | fin y => simpa using lt_trichotomy x y
    | posInf => exact Or.inl rfl
    | negInf => exact Or.inr (Or.inr rfl)
    | nan => exact absurd rfl hb
  | posInf =>
    cases b with
    | posInf => exact Or.inr (Or.inl rfl)
    | nan => exact absurd rfl hb
    | _ => exact Or.inr (Or.inr rfl)
  | negInf =>
    cases b with
    | negInf => exact Or.inr (Or.inl rfl)
    | nan => exact absurd rfl hb
    | _ => exact Or.inl rfl
  | nan => exact absurd rfl ha

/-- One step of a running minimum: a value replaces what it is less than, so that
a NaN replaces nothing. -/
def lesser (smallest x : Ieee K) : Ieee K := if x < smallest then x else smallest

theorem lesser_ne_nan {smallest : Ieee K} (h : smallest ≠ nan) (x : Ieee K) :
    lesser smallest x ≠ nan := by
  unfold lesser
  split
  next less => exact ne_nan_of_lt less
  next => exact h

theorem lesser_right_comm (smallest x y : Ieee K) :
    lesser (lesser smallest x) y = lesser (lesser smallest y) x := by
  by_cases hx : x < smallest <;> by_cases hy : y < smallest
  · simp only [lesser, if_pos hx, if_pos hy]
    rcases lt_or_eq_or_lt (ne_nan_of_lt hx) (ne_nan_of_lt hy) with less | rfl | less
    · rw [if_neg fun h => Ieee.lt_irrefl x (Ieee.lt_trans less h), if_pos less]
    · rfl
    · rw [if_pos less, if_neg fun h => Ieee.lt_irrefl x (Ieee.lt_trans h less)]
  · have above : ¬y < x := fun h => hy (Ieee.lt_trans h hx)
    simp only [lesser, if_pos hx, if_neg hy, if_neg above]
  · have above : ¬x < y := fun h => hx (Ieee.lt_trans h hy)
    simp only [lesser, if_neg hx, if_pos hy, if_neg above]
  · simp only [lesser, if_neg hx, if_neg hy]

theorem lesser_lt_iff {smallest c : Ieee K} (h : smallest ≠ nan) (x : Ieee K) :
    lesser smallest x < c ↔ smallest < c ∨ x < c := by
  unfold lesser
  split
  next less => exact ⟨Or.inr, fun either => either.elim (Ieee.lt_trans less) id⟩
  next more =>
    refine ⟨Or.inl, fun either => either.elim id fun below => ?_⟩
    rcases lt_or_eq_or_lt h (ne_nan_of_lt below) with less | rfl | less
    · exact Ieee.lt_trans less below
    · exact below
    · exact absurd less more

section Fold

variable {α : Type} (value : α → Ieee K)

/-- A running minimum does not depend on the order of its list. -/
theorem foldl_lesser_perm {xs ys : List α} (perm : xs.Perm ys) (smallest : Ieee K) :
    xs.foldl (fun s x => lesser s (value x)) smallest =
      ys.foldl (fun s x => lesser s (value x)) smallest :=
  perm.foldl_eq' (fun _ _ _ _ s => lesser_right_comm s _ _) smallest

theorem foldl_lesser_lt_iff {smallest c : Ieee K} (h : smallest ≠ nan) (xs : List α) :
    xs.foldl (fun s x => lesser s (value x)) smallest < c ↔
      smallest < c ∨ ∃ x ∈ xs, value x < c := by
  induction xs generalizing smallest with
  | nil => simp
  | cons x rest ih =>
    rw [List.foldl_cons, ih (lesser_ne_nan h (value x)), lesser_lt_iff h]
    simp [or_assoc]

theorem foldl_lesser_nan (smallest : Ieee K) {xs : List α} (h : ∀ x ∈ xs, value x = nan) :
    xs.foldl (fun s x => lesser s (value x)) smallest = smallest := by
  induction xs with
  | nil => rfl
  | cons x rest ih =>
    have skipped : lesser smallest (value x) = smallest := by
      rw [h x List.mem_cons_self, lesser, if_neg (not_nan_lt smallest)]
    rw [List.foldl_cons, skipped]
    exact ih fun y hy => h y (List.mem_cons_of_mem x hy)

end Fold

end Ieee
