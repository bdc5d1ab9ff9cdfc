import Mathlib.Data.Nat.ModEq
import Mathlib.Data.List.Basic

/-! Memory as a list of bytes: slices of it, whole numbers stored in it with the
least significant byte first, and where the members of a structure are placed. -/

namespace LittleEndian

def toBytes : ℕ → ℕ → List UInt8
  | 0, _ => []
  | width + 1, n => UInt8.ofNat n :: toBytes width (n / 256)

def ofBytes : List UInt8 → ℕ
  | [] => 0
  | byte :: rest => byte.toNat + 256 * ofBytes rest

@[simp] theorem length_toBytes (width n : ℕ) : (toBytes width n).length = width := by
  induction width generalizing n with
  | zero => rfl
  | succ width ih => rw [toBytes, List.length_cons, ih]

theorem ofBytes_toBytes {width n : ℕ} (h : n < 256 ^ width) : ofBytes (toBytes width n) = n := by
  induction width generalizing n with
  | zero =>
    obtain rfl : n = 0 := by simpa using h
    rfl
  | succ width ih =>
    have high : n / 256 < 256 ^ width := by
      rw [Nat.pow_succ] at h
      omega
    rw [toBytes, ofBytes, ih high, UInt8.toNat_ofNat']
    omega

section Slices

/-- The bytes of a slice that starts at an offset. -/
def slice (bytes : List UInt8) (offset size : ℕ) : List UInt8 := (bytes.drop offset).take size

/-- Bytes stored over those from an offset on. -/
def splice (bytes : List UInt8) (offset : ℕ) (part : List UInt8) : List UInt8 :=
  bytes.take offset ++ part ++ bytes.drop (offset + part.length)

variable {bytes part : List UInt8} {offset : ℕ}

theorem length_slice {size : ℕ} (h : offset + size ≤ bytes.length) :
    (slice bytes offset size).length = size := by
  rw [slice, List.length_take, List.length_drop]
  omega

theorem length_splice (h : offset + part.length ≤ bytes.length) :
    (splice bytes offset part).length = bytes.length := by
  rw [splice, List.length_append, List.length_append, List.length_take, List.length_drop]
  omega

/-- A slice inside what was stored. -/
theorem slice_splice {start size : ℕ} (room : offset ≤ bytes.length)
    (inside : start + size ≤ part.length) :
    slice (splice bytes offset part) (offset + start) size = slice part start size := by
  have head : (bytes.take offset).length = offset := by
    rw [List.length_take]
    omega
  rw [slice, splice, List.append_assoc, ← List.drop_drop]
  have skipped : (bytes.take offset ++ (part ++ bytes.drop (offset + part.length))).drop offset =
      part ++ bytes.drop (offset + part.length) := List.drop_left' head
  rw [skipped, List.drop_append_of_le_length (by omega),
    List.take_append_of_le_length (by rw [List.length_drop]; omega), slice]

/-- Bytes outside of what was stored keep their value. -/
theorem getElem?_splice {i : ℕ} (room : offset ≤ bytes.length)
    (outside : i < offset ∨ offset + part.length ≤ i) :
    (splice bytes offset part)[i]? = bytes[i]? := by
  have head : (bytes.take offset).length = offset := by
    rw [List.length_take]
    omega
  rw [splice, List.append_assoc]
  rcases outside with before | after
  · rw [List.getElem?_append_left (by omega), List.getElem?_take_of_lt before]
  · rw [List.getElem?_append_right (by omega), head, List.getElem?_append_right (by omega),
      List.getElem?_drop]
    congr 1
    omega

theorem slice_slice (bytes : List UInt8) {offset size start inner : ℕ}
    (inside : start + inner ≤ size) :
    slice (slice bytes offset size) start inner = slice bytes (offset + start) inner := by
  rw [slice, slice, slice, List.drop_take, List.take_take, List.drop_drop,
    Nat.min_eq_left (by omega)]

theorem slice_append_right (head rest : List UInt8) (offset size : ℕ) :
    slice (head ++ rest) (head.length + offset) size = slice rest offset size := by
  rw [slice, slice, ← List.drop_drop, List.drop_left]

theorem slice_congr {other : List UInt8} {size : ℕ}
    (same : ∀ i, offset ≤ i → i < offset + size → bytes[i]? = other[i]?) :
    slice bytes offset size = slice other offset size := by
  refine List.ext_getElem? fun i => ?_
  rw [slice, slice, List.getElem?_take, List.getElem?_take]
  split
  next below =>
    rw [List.getElem?_drop, List.getElem?_drop]
    exact same (offset + i) (by omega) (by omega)
  next => rfl

end Slices

section Words

variable {bits other : ℕ}

def word (w : BitVec bits) : List UInt8 := toBytes (bits / 8) w.toNat

def load (bits : ℕ) (bytes : List UInt8) (offset : ℕ) : BitVec bits :=
  BitVec.ofNat bits (ofBytes (slice bytes offset (bits / 8)))

@[simp] theorem length_word (w : BitVec bits) : (word w).length = bits / 8 := length_toBytes _ _

theorem load_of_slice {bytes : List UInt8} {offset : ℕ} {w : BitVec bits} (whole : bits % 8 = 0)
    (stored : slice bytes offset (bits / 8) = word w) : load bits bytes offset = w := by
  have bound : w.toNat < 256 ^ (bits / 8) := by
    have power : 256 ^ (bits / 8) = 2 ^ bits := by
      rw [show 256 = 2 ^ 8 from rfl, ← Nat.pow_mul,
        Nat.mul_div_cancel' (Nat.dvd_of_mod_eq_zero whole)]
    rw [power]
    exact w.isLt
  rw [load, stored, word, ofBytes_toBytes bound, BitVec.ofNat_toNat, BitVec.setWidth_eq]

theorem load_head (w : BitVec bits) (whole : bits % 8 = 0) (rest : List UInt8) :
    load bits (word w ++ rest) 0 = w := by
  apply load_of_slice whole
  rw [slice, List.drop_zero]
  exact List.take_left' (length_word w)

/-- A load from bytes that were stored. -/
theorem load_splice {bytes part : List UInt8} {offset start : ℕ} (room : offset ≤ bytes.length)
    (inside : start + bits / 8 ≤ part.length) :
    load bits (splice bytes offset part) (offset + start) = load bits part start := by
  rw [load, load, slice_splice room inside]

theorem load_congr {bytes other : List UInt8} {offset : ℕ}
    (same : ∀ i, offset ≤ i → i < offset + bits / 8 → bytes[i]? = other[i]?) :
    load bits bytes offset = load bits other offset := by
  rw [load, load, slice_congr same]

/-- A load from a slice is a load from the whole. -/
theorem load_slice (bytes : List UInt8) {offset size start : ℕ} (inside : start + bits / 8 ≤ size) :
    load bits (slice bytes offset size) start = load bits bytes (offset + start) := by
  rw [load, load, slice_slice bytes inside]

theorem load_tail (part rest : List UInt8) {offset : ℕ} (skip : part.length ≤ offset) :
    load bits (part ++ rest) offset = load bits rest (offset - part.length) := by
  have later : (part ++ rest).drop offset = rest.drop (offset - part.length) := by
    rw [List.drop_append, List.drop_eq_nil_of_le skip, List.nil_append]
  rw [load, load, slice, slice, later]

end Words

end LittleEndian

namespace CLayout

structure CType where
  size : ℕ
  align : ℕ

def CType.array (t : CType) (n : ℕ) : CType := ⟨n * t.size, t.align⟩

def roundUp (n align : ℕ) : ℕ := (n + align - 1) / align * align

/-- The offsets of members in declared order, each at the next multiple of its
alignment from a position on. -/
def offsets : ℕ → List CType → List ℕ
  | _, [] => []
  | position, t :: rest =>
    roundUp position t.align :: offsets (roundUp position t.align + t.size) rest

def endOffset : ℕ → List CType → ℕ
  | position, [] => position
  | position, t :: rest => endOffset (roundUp position t.align + t.size) rest

/-- A structure: aligned like its strictest member, and as a whole to its own. -/
def CType.struct (alignas : ℕ) (members : List CType) : CType :=
  let align := members.foldl (fun strictest t => max strictest t.align) alignas
  ⟨roundUp (endOffset 0 members) align, align⟩

def offsetOf (members : List CType) (k : ℕ) : ℕ := (offsets 0 members).getD k 0

end CLayout
