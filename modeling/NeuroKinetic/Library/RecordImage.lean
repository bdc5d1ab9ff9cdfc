import NeuroKinetic.Library.MemoryImage

/-! A record in memory: fields of whole bytes at places that do not overlap. -/

open LittleEndian

namespace RecordImage

theorem load_word {bits offset : ℕ} {bytes : List UInt8} (w : BitVec bits) (whole : bits % 8 = 0)
    (room : offset ≤ bytes.length) : load bits (splice bytes offset (word w)) offset = w := by
  have stored : load bits (splice bytes offset (word w)) (offset + 0) = load bits (word w) 0 :=
    load_splice room (by rw [length_word, Nat.zero_add])
  have read := load_head w whole []
  rw [List.append_nil] at read
  exact stored.trans read

structure Layout (F : Type) where
  offset : F → ℕ
  bits : F → ℕ
  whole : ∀ f, bits f % 8 = 0
  apart : ∀ f g, f ≠ g → offset f + bits f / 8 ≤ offset g ∨ offset g + bits g / 8 ≤ offset f

namespace Layout

variable {F : Type} (layout : Layout F)

/-- A value for each field. -/
def Frame : Type := (f : F) → BitVec (layout.bits f)

def get (bytes : List UInt8) : layout.Frame := fun f => load (layout.bits f) bytes (layout.offset f)

def put (bytes : List UInt8) (f : F) (w : BitVec (layout.bits f)) : List UInt8 :=
  splice bytes (layout.offset f) (word w)

/-- The fields of a list stored one after another. -/
def putAll (frame : layout.Frame) (fields : List F) (bytes : List UInt8) : List UInt8 :=
  fields.foldl (fun bytes f => layout.put bytes f (frame f)) bytes

/-- Every field lies between two positions. -/
def Within (low high : ℕ) : Prop :=
  ∀ f, low ≤ layout.offset f ∧ layout.offset f + layout.bits f / 8 ≤ high

variable {layout} {bytes : List UInt8} {low high : ℕ}

/-- Only the bytes between the two positions are read. -/
theorem get_congr {other : List UInt8} (within : layout.Within low high)
    (same : ∀ i, low ≤ i → i < high → bytes[i]? = other[i]?) :
    layout.get bytes = layout.get other := by
  funext f
  obtain ⟨after, before⟩ := within f
  exact load_congr fun i start stop => same i (after.trans start) (stop.trans_le before)

section Store

variable {f : F} (w : BitVec (layout.bits f))

theorem length_put (within : layout.Within low high) (room : high ≤ bytes.length) :
    (layout.put bytes f w).length = bytes.length := by
  have fits := (within f).2
  exact length_splice (by rw [length_word]; omega)

theorem get_put_self (within : layout.Within low high) (room : high ≤ bytes.length) :
    layout.get (layout.put bytes f w) f = w := by
  have fits := (within f).2
  exact load_word w (layout.whole f) (by omega)

/-- A store leaves the bytes outside of its field alone. -/
theorem getElem?_put (within : layout.Within low high) (room : high ≤ bytes.length) {i : ℕ}
    (outside : i < layout.offset f ∨ layout.offset f + layout.bits f / 8 ≤ i) :
    (layout.put bytes f w)[i]? = bytes[i]? := by
  have fits := (within f).2
  exact getElem?_splice (by omega) (by rw [length_word]; exact outside)

theorem get_put_of_ne (within : layout.Within low high) (room : high ≤ bytes.length) {g : F}
    (different : g ≠ f) : layout.get (layout.put bytes f w) g = layout.get bytes g := by
  refine load_congr fun i start stop => getElem?_put w within room ?_
  rcases layout.apart g f different with before | after
  · exact Or.inl (stop.trans_le before)
  · exact Or.inr (after.trans start)

end Store

section Stores

variable (frame : layout.Frame) (fields : List F)

theorem length_putAll (within : layout.Within low high) (room : high ≤ bytes.length) :
    (layout.putAll frame fields bytes).length = bytes.length := by
  induction fields generalizing bytes with
  | nil => rfl
  | cons f rest ih =>
    have kept := length_put (frame f) within room
    exact (ih (room.trans_eq kept.symm)).trans kept

theorem getElem?_putAll (within : layout.Within low high) (room : high ≤ bytes.length) {i : ℕ}
    (outside : i < low ∨ high ≤ i) : (layout.putAll frame fields bytes)[i]? = bytes[i]? := by
  induction fields generalizing bytes with
  | nil => rfl
  | cons f rest ih =>
    have kept := length_put (frame f) within room
    obtain ⟨after, before⟩ := within f
    exact (ih (room.trans_eq kept.symm)).trans (getElem?_put (frame f) within room (by omega))

/-- After the stores each stored field has its value, and the others have theirs. -/
theorem get_putAll [DecidableEq F] (within : layout.Within low high) (room : high ≤ bytes.length)
    (g : F) : layout.get (layout.putAll frame fields bytes) g =
      if g ∈ fields then frame g else layout.get bytes g := by
  induction fields generalizing bytes with
  | nil => rfl
  | cons f rest ih =>
    have kept := length_put (frame f) within room
    have later := ih (room.trans_eq kept.symm)
    rw [putAll, List.foldl_cons]
    refine later.trans ?_
    by_cases again : g ∈ rest
    · rw [if_pos again, if_pos (List.mem_cons_of_mem f again)]
    · rw [if_neg again]
      by_cases same : g = f
      · subst same
        rw [if_pos List.mem_cons_self]
        exact get_put_self (frame g) within room
      · rw [if_neg (by simp [same, again])]
        exact get_put_of_ne (frame f) within room same

end Stores

end Layout

end RecordImage
