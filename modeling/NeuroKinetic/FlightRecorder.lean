import NeuroKinetic.Library.MemoryImage
import NeuroKinetic.Library.OrderedStore
import NeuroKinetic.Library.PaddedDecimal

open LittleEndian OrderedStore PaddedDecimal

namespace NeuroKinetic

/-- One incident; its floats are kept as their 32-bit words. -/
structure InterventionRecord where
  sequenceNumber : BitVec 64
  timestampNs : BitVec 64
  barrierMargin : BitVec 32
  commandedJoint5Torque : BitVec 32
  safeJoint5Torque : BitVec 32
  activeMask : BitVec 32
  deriving DecidableEq

def sizeofInterventionRecord : Nat := 32

/-- `memcpy` out of a record, whose members leave no gaps. -/
def InterventionRecord.toBytes (r : InterventionRecord) : List UInt8 :=
  word r.sequenceNumber ++ (word r.timestampNs ++ (word r.barrierMargin ++
    (word r.commandedJoint5Torque ++ (word r.safeJoint5Torque ++ (word r.activeMask ++ [])))))

/-- `memcpy` into a record. -/
def InterventionRecord.ofBytes (bytes : List UInt8) : InterventionRecord where
  sequenceNumber := load 64 bytes 0
  timestampNs := load 64 bytes 8
  barrierMargin := load 32 bytes 16
  commandedJoint5Torque := load 32 bytes 20
  safeJoint5Torque := load 32 bytes 24
  activeMask := load 32 bytes 28

/-- A column family: keys in bytewise order. -/
abbrev ColumnFamily : Type := Std.TreeMap (List UInt8) (List UInt8)

def asciiBytes (text : List Char) : List UInt8 := text.map Char.toUInt8

/-- The decimal is filled up to 20 columns with zeros. -/
def interventionKey (timestampNs : BitVec 64) : List UInt8 :=
  asciiBytes ("INTERVENE-".toList ++ List.leftpad 20 '0' (Nat.toDigits 10 timestampNs.toNat))

/-- The recorder; there is no column family when the store could not be opened. -/
structure FlightRecorder where
  cfInterventions : Option ColumnFamily

def FlightRecorder.logCbfIntervention (recorder : FlightRecorder) (r : InterventionRecord) :
    FlightRecorder × Bool :=
  match recorder.cfInterventions with
  | none => (recorder, false)
  | some cf => (⟨some (cf.insert (interventionKey r.timestampNs) r.toBytes)⟩, true)

/-- The calls one after another. -/
def FlightRecorder.logAll (recorder : FlightRecorder) (records : List InterventionRecord) :
    FlightRecorder :=
  records.foldl (fun recorder r => (recorder.logCbfIntervention r).1) recorder

section Payload

@[simp] theorem InterventionRecord.length_toBytes (r : InterventionRecord) :
    r.toBytes.length = sizeofInterventionRecord := by
  simp [toBytes, sizeofInterventionRecord]

theorem InterventionRecord.ofBytes_toBytes (r : InterventionRecord) : ofBytes r.toBytes = r := by
  have head : ∀ {bits : ℕ} (w : BitVec bits) (rest : List UInt8), bits % 8 = 0 →
      load bits (word w ++ rest) 0 = w := fun w rest whole => load_head w whole rest
  simp (disch := simp) only [ofBytes, toBytes, head, load_tail, length_word]

end Payload

section Keys

theorem compare_interventionKey (a b : BitVec 64) :
    compare (interventionKey a) (interventionKey b) = compare a.toNat b.toNat := by
  have bound : ∀ t : BitVec 64, t.toNat < 10 ^ (19 + 1) := fun t =>
    t.isLt.trans (by decide)
  have ordered : ∀ d < 10, ∀ e < 10,
      compare (Nat.digitChar d).toUInt8 (Nat.digitChar e).toUInt8 = compare d e := by
    decide
  rw [interventionKey, interventionKey, asciiBytes, asciiBytes, List.map_append, List.map_append,
    compare_append_left, leftpad_toDigits (bound a), leftpad_toDigits (bound b), map_digits,
    map_digits, compare_digits _ (fun d e hd he => ordered d hd e he) (bound a) (bound b)]

theorem interventionKey_injective {a b : BitVec 64} (h : interventionKey a = interventionKey b) :
    a = b := by
  have same := compare_interventionKey a b
  rw [h, Std.ReflOrd.compare_self] at same
  exact BitVec.eq_of_toNat_eq (Nat.compare_eq_eq.mp same.symm)

end Keys

section Log

/-- What the calls put, as a log of the store. -/
theorem FlightRecorder.logAll_eq (cf : ColumnFamily) (records : List InterventionRecord) :
    FlightRecorder.logAll ⟨some cf⟩ records =
      ⟨some (putAll (fun r => interventionKey r.timestampNs) InterventionRecord.toBytes cf
        records)⟩ := by
  induction records generalizing cf with
  | nil => rfl
  | cons r rest ih => exact ih _

end Log

end NeuroKinetic
