import NeuroKinetic.Library.Binary32
import NeuroKinetic.Library.MemoryImage

/-! Packing of values by a format string with standard sizes and no alignment. -/

open LittleEndian

namespace PyStruct

inductive Code where
  | uint64
  | uint32
  | float32
  | bytes (n : ℕ)
  deriving DecidableEq

def Code.size : Code → ℕ
  | .uint64 => 8
  | .uint32 => 4
  | .float32 => 4
  | .bytes n => n

/-- The items of a format, with the repeat count read so far; a count in front of
`s` is the length of one item. -/
def items : Option ℕ → List Char → Option (List Code)
  | none, [] => some []
  | some _, [] => none
  | count, c :: rest =>
    if c.isDigit then items (some (10 * count.getD 0 + (c.toNat - 48))) rest
    else
      let repeated := fun code => (items none rest).map (List.replicate (count.getD 1) code ++ ·)
      match c with
      | 'Q' => repeated .uint64
      | 'I' => repeated .uint32
      | 'f' => repeated .float32
      | 's' => (items none rest).map (.bytes (count.getD 1) :: ·)
      | _ => none

def parse : List Char → Option (List Code)
  | '=' :: rest => items none rest
  | _ => none

def calcsize (codes : List Code) : ℕ := (codes.map Code.size).sum

inductive Value (K : Type) where
  | int (n : ℕ)
  | float (x : Ieee K)
  | bytes (b : List UInt8)

/-- What packing, unpacking or storing into a slice of another size raises. -/
inductive Raised where
  | structError
  | overflowError
  | indexError
  deriving DecidableEq

def Value.toInt {K : Type} : Value K → ℕ
  | .int n => n
  | _ => 0

def Value.toFloat {K : Type} [Zero K] : Value K → Ieee K
  | .float x => x
  | _ => .fin 0

section Pack

variable {K : Type} [Field K] [LinearOrder K] [FloorRing K]

def Code.pack : Code → Value K → Except Raised (List UInt8)
  | .uint64, .int n => if n < 2 ^ 64 then .ok (toBytes 8 n) else .error .structError
  | .uint32, .int n => if n < 2 ^ 32 then .ok (toBytes 4 n) else .error .structError
  | .float32, .float x =>
    match Binary32.encode x with
    | some w => .ok (word w)
    | none => .error .overflowError
  | .bytes n, .bytes b => .ok (b.take n ++ List.replicate (n - b.length) 0)
  | _, _ => .error .structError

def packItems : List Code → List (Value K) → Except Raised (List UInt8)
  | [], [] => .ok []
  | c :: codes, v :: values =>
    match c.pack v with
    | .error e => .error e
    | .ok item =>
      match packItems codes values with
      | .error e => .error e
      | .ok rest => .ok (item ++ rest)
  | _, _ => .error .structError

def pack (format : List Char) (values : List (Value K)) : Except Raised (List UInt8) :=
  match parse format with
  | none => .error .structError
  | some codes =>
    if codes.length = values.length then packItems codes values else .error .structError

end Pack

section Unpack

variable {K : Type} [Field K]

def Code.unpack : Code → List UInt8 → Value K
  | .uint64, item => .int (load 64 item 0).toNat
  | .uint32, item => .int (load 32 item 0).toNat
  | .float32, item => .float (Binary32.decode (load 32 item 0))
  | .bytes _, item => .bytes item

def unpackFrom : List Code → List UInt8 → ℕ → List (Value K)
  | [], _, _ => []
  | c :: codes, bytes, offset =>
    c.unpack (slice bytes offset c.size) :: unpackFrom codes bytes (offset + c.size)

def unpack (format : List Char) (bytes : List UInt8) : Except Raised (List (Value K)) :=
  match parse format with
  | none => .error .structError
  | some codes =>
    if bytes.length = calcsize codes then .ok (unpackFrom codes bytes 0) else .error .structError

end Unpack

section Lemmas

variable {K : Type} [Field K]

theorem unpackFrom_getElem? (codes : List Code) (bytes : List UInt8) (offset k : ℕ) :
    (unpackFrom codes bytes offset : List (Value K))[k]? =
      codes[k]?.map fun c => c.unpack (slice bytes (offset + calcsize (codes.take k)) c.size) := by
  induction codes generalizing offset k with
  | nil => rfl
  | cons c codes ih =>
    cases k with
    | zero => simp [unpackFrom, calcsize]
    | succ k =>
      rw [unpackFrom, List.getElem?_cons_succ, List.getElem?_cons_succ, ih, List.take_succ_cons]
      simp only [calcsize, List.map_cons, List.sum_cons, Nat.add_assoc]

variable [LinearOrder K] [FloorRing K]

theorem Code.length_pack {c : Code} {v : Value K} {item : List UInt8} (h : c.pack v = .ok item) :
    item.length = c.size := by
  unfold Code.pack at h
  split at h
  next =>
    split at h
    next => cases h; exact length_toBytes 8 _
    next => cases h
  next =>
    split at h
    next => cases h; exact length_toBytes 4 _
    next => cases h
  next =>
    split at h
    next => cases h; exact length_word _
    next => cases h
  next n b =>
    cases h
    rw [List.length_append, List.length_take, List.length_replicate, Code.size]
    omega
  next => cases h

theorem packItems_cons_ok {c : Code} {codes : List Code} {v : Value K} {values : List (Value K)}
    {payload : List UInt8} (h : packItems (c :: codes) (v :: values) = .ok payload) :
    ∃ item rest, c.pack v = .ok item ∧ packItems codes values = .ok rest ∧
      payload = item ++ rest := by
  rw [packItems] at h
  split at h
  next => cases h
  next item packed =>
    split at h
    next => cases h
    next rest others =>
      cases h
      exact ⟨item, rest, packed, others, rfl⟩

theorem length_packItems {codes : List Code} {values : List (Value K)} {payload : List UInt8}
    (h : packItems codes values = .ok payload) : payload.length = calcsize codes := by
  induction codes generalizing values payload with
  | nil =>
    cases values with
    | nil => cases h; rfl
    | cons v values => cases h
  | cons c codes ih =>
    cases values with
    | nil => cases h
    | cons v values =>
      obtain ⟨item, rest, packed, others, rfl⟩ := packItems_cons_ok h
      rw [List.length_append, Code.length_pack packed, ih others]
      rfl

/-- Where a packed item is found. -/
theorem packItems_slice {codes : List Code} {values : List (Value K)} {payload : List UInt8}
    (h : packItems codes values = .ok payload) {k : ℕ} {c : Code} {v : Value K}
    (code : codes[k]? = some c) (value : values[k]? = some v) :
    c.pack v = .ok (slice payload (calcsize (codes.take k)) c.size) := by
  induction codes generalizing values payload k with
  | nil => cases code
  | cons first codes ih =>
    cases values with
    | nil => cases value
    | cons w values =>
      obtain ⟨item, rest, packed, others, rfl⟩ := packItems_cons_ok h
      have length := Code.length_pack packed
      cases k with
      | zero =>
        cases code
        cases value
        rw [packed, List.take_zero, calcsize, List.map_nil, List.sum_nil, slice, List.drop_zero,
          List.take_left' length]
      | succ k =>
        have start : calcsize ((first :: codes).take (k + 1)) =
            item.length + calcsize (codes.take k) := by
          rw [length]
          rfl
        rw [ih others code value, start, slice_append_right]

theorem packItems_float {codes : List Code} {values : List (Value K)} {payload : List UInt8}
    (h : packItems codes values = .ok payload) {k : ℕ} {x : Ieee K}
    (code : codes[k]? = some .float32) (value : values[k]? = some (.float x)) :
    Binary32.encode x = some (load 32 payload (calcsize (codes.take k))) := by
  have stored := packItems_slice h code value
  simp only [Code.pack] at stored
  split at stored
  next w encoded =>
    rw [encoded, load_of_slice rfl (Except.ok.inj stored).symm]
  next => cases stored

theorem packItems_uint64 {codes : List Code} {values : List (Value K)} {payload : List UInt8}
    (h : packItems codes values = .ok payload) {k n : ℕ}
    (code : codes[k]? = some .uint64) (value : values[k]? = some (.int n)) :
    n < 2 ^ 64 ∧ (load 64 payload (calcsize (codes.take k))).toNat = n := by
  have stored := packItems_slice h code value
  simp only [Code.pack] at stored
  split at stored
  next bound =>
    have size : (BitVec.ofNat 64 n).toNat = n := Nat.mod_eq_of_lt bound
    have item : slice payload (calcsize (codes.take k)) (64 / 8) = word (BitVec.ofNat 64 n) := by
      rw [word, size]
      exact (Except.ok.inj stored).symm
    exact ⟨bound, by rw [load_of_slice rfl item, size]⟩
  next => cases stored

theorem packItems_uint32 {codes : List Code} {values : List (Value K)} {payload : List UInt8}
    (h : packItems codes values = .ok payload) {k n : ℕ}
    (code : codes[k]? = some .uint32) (value : values[k]? = some (.int n)) :
    (load 32 payload (calcsize (codes.take k))).toNat = n := by
  have stored := packItems_slice h code value
  simp only [Code.pack] at stored
  split at stored
  next bound =>
    have size : (BitVec.ofNat 32 n).toNat = n := Nat.mod_eq_of_lt bound
    have item : slice payload (calcsize (codes.take k)) (32 / 8) = word (BitVec.ofNat 32 n) := by
      rw [word, size]
      exact (Except.ok.inj stored).symm
    rw [load_of_slice rfl item, size]
  next => cases stored

/-- Values that can be packed one by one can be packed together. -/
theorem packItems_ok {codes : List Code} {values : List (Value K)}
    (h : List.Forall₂ (fun c v => ∃ item, Code.pack c v = .ok item) codes values) :
    ∃ payload, packItems codes values = .ok payload := by
  induction h with
  | nil => exact ⟨[], rfl⟩
  | cons packed _ ih =>
    obtain ⟨item, packed⟩ := packed
    obtain ⟨rest, others⟩ := ih
    exact ⟨item ++ rest, by simp only [packItems, packed, others]⟩

theorem forall₂_floats {xs : List (Ieee K)} (h : ∀ x ∈ xs, (Binary32.encode x).isSome) :
    List.Forall₂ (fun c v => ∃ item, Code.pack c v = .ok item)
      (List.replicate xs.length .float32) (xs.map .float) := by
  induction xs with
  | nil => exact .nil
  | cons x xs ih =>
    refine .cons ?_ (ih fun y member => h y (List.mem_cons_of_mem x member))
    obtain ⟨w, encoded⟩ := Option.isSome_iff_exists.mp (h x List.mem_cons_self)
    exact ⟨word w, by simp only [Code.pack, encoded]⟩

end Lemmas

end PyStruct
