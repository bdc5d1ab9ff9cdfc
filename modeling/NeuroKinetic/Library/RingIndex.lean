import Mathlib.Algebra.Group.Fin.Basic
import Mathlib.Data.Fin.Basic
import Mathlib.Data.Nat.ModEq

namespace RingIndex

variable {capacity : Nat} [NeZero capacity]

/-- The slot of the `k`-th element ever stored in a ring. -/
def slot (capacity : Nat) [NeZero capacity] (k : Nat) : Fin capacity := Fin.ofNat capacity k

def increment (index : Fin capacity) : Fin capacity := Fin.ofNat capacity (index.val + 1)

theorem slot_eq_iff {j k : Nat} : slot capacity j = slot capacity k ↔ j ≡ k [MOD capacity] :=
  Fin.ext_iff

theorem increment_slot (k : Nat) : increment (slot capacity k) = slot capacity (k + 1) := by
  apply Fin.ext
  exact Nat.mod_add_mod k capacity 1

/-- Less than a round apart, different elements have different slots. -/
theorem slot_inj {j k : Nat} (order : j ≤ k) (near : k < j + capacity) :
    slot capacity j = slot capacity k ↔ j = k := by
  constructor
  · intro h
    have same := slot_eq_iff.mp h
    obtain ⟨gap, rfl⟩ := Nat.exists_eq_add_of_le order
    have divides : capacity ∣ gap := by
      have := (Nat.modEq_iff_dvd' order).mp same
      rwa [Nat.add_sub_cancel_left] at this
    have := Nat.eq_zero_of_dvd_of_lt divides (by omega)
    omega
  · rintro rfl
    rfl

theorem slot_round {j k : Nat} (order : j ≤ k) (near : k ≤ j + capacity) (ahead : j < k) :
    slot capacity j = slot capacity k ↔ k = j + capacity := by
  constructor
  · intro h
    by_contra short
    have := (slot_inj order (by omega)).mp h
    omega
  · rintro rfl
    exact slot_eq_iff.mpr (by simp [Nat.ModEq])

theorem slot_sub {j k : Nat} (order : j ≤ k) (near : k < j + capacity) :
    (slot capacity k - slot capacity j).val = k - j := by
  have split : slot capacity k = slot capacity (k - j) + slot capacity j := by
    apply Fin.ext
    rw [Fin.val_add]
    simp only [slot, Fin.ofNat, ← Nat.add_mod]
    rw [Nat.sub_add_cancel order]
  rw [split, add_sub_cancel_right]
  exact Nat.mod_eq_of_lt (by omega)

end RingIndex
