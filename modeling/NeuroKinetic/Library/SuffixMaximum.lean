import Mathlib.Algebra.BigOperators.Group.List.Basic
import Mathlib.Algebra.Order.Monoid.Defs
import Mathlib.Data.List.Induction
import Mathlib.Order.Bounds.Defs

/-! A running total with a floor at zero, and the sums over the suffixes of its terms. -/

namespace SuffixMaximum

variable {G : Type} [AddCommMonoid G]

def flooredSum [LinearOrder G] (ws : List G) : G := ws.foldl (fun total w => max 0 (total + w)) 0

/-- The sums over all suffixes, the empty one included. -/
def suffixSums (ws : List G) : Set G := {total | ∃ suffix, suffix <:+ ws ∧ suffix.sum = total}

theorem flooredSum_concat [LinearOrder G] (ws : List G) (w : G) :
    flooredSum (ws ++ [w]) = max 0 (flooredSum ws + w) := by
  rw [flooredSum, List.foldl_append]
  rfl

theorem zero_mem_suffixSums (ws : List G) : 0 ∈ suffixSums ws :=
  ⟨[], List.nil_suffix, List.sum_nil⟩

theorem mem_suffixSums_concat {ws : List G} {w total : G} :
    total ∈ suffixSums (ws ++ [w]) ↔ total = 0 ∨ ∃ before ∈ suffixSums ws, total = before + w := by
  constructor
  · rintro ⟨suffix, inside, rfl⟩
    rcases List.suffix_concat_iff.mp inside with rfl | ⟨rest, rfl, shorter⟩
    · exact Or.inl List.sum_nil
    · exact Or.inr ⟨rest.sum, ⟨rest, shorter, rfl⟩, by rw [List.sum_append, List.sum_singleton]⟩
  · rintro (rfl | ⟨_, ⟨rest, shorter, rfl⟩, rfl⟩)
    · exact zero_mem_suffixSums _
    · refine ⟨rest ++ [w], List.suffix_concat_iff.mpr (Or.inr ⟨rest, rfl, shorter⟩), ?_⟩
      rw [List.sum_append, List.sum_singleton]

variable [LinearOrder G] [IsOrderedAddMonoid G]

theorem isGreatest_concat {ws : List G} {most : G} (h : IsGreatest (suffixSums ws) most) (w : G) :
    IsGreatest (suffixSums (ws ++ [w])) (max 0 (most + w)) := by
  constructor
  · rw [mem_suffixSums_concat]
    rcases max_choice 0 (most + w) with zero | sum
    · exact Or.inl zero
    · exact Or.inr ⟨most, h.1, sum⟩
  · intro total member
    rcases mem_suffixSums_concat.mp member with rfl | ⟨before, inside, rfl⟩
    · exact le_max_left _ _
    · exact le_max_of_le_right (add_le_add_left (h.2 inside) w)

/-- The floored total is the greatest sum over a suffix. -/
theorem flooredSum_isGreatest (ws : List G) : IsGreatest (suffixSums ws) (flooredSum ws) := by
  induction ws using List.reverseRecOn with
  | nil =>
    refine ⟨zero_mem_suffixSums _, ?_⟩
    rintro total ⟨suffix, inside, rfl⟩
    rw [List.suffix_nil.mp inside]
    exact le_rfl
  | append_singleton ws w ih =>
    rw [flooredSum_concat]
    exact isGreatest_concat ih w

theorem le_flooredSum_iff {ws : List G} {c : G} :
    c ≤ flooredSum ws ↔ ∃ suffix, suffix <:+ ws ∧ c ≤ suffix.sum := by
  obtain ⟨⟨best, inside, attained⟩, most⟩ := flooredSum_isGreatest ws
  constructor
  · exact fun h => ⟨best, inside, h.trans_eq attained.symm⟩
  · rintro ⟨suffix, inside, h⟩
    exact h.trans (most ⟨suffix, inside, rfl⟩)

end SuffixMaximum
