import NeuroKinetic.SlotWords
import NeuroKinetic.Library.OrderedCopy
import Mathlib.Data.Fintype.Basic
import Mathlib.Data.Rat.Defs

open OrderedCopy

namespace NeuroKinetic

/-- The dictionary of `read_telemetry`; the fallback has no error code. -/
structure TelemetryReading (K : Type) where
  sequence : Nat
  timestampNs : Nat
  positions : Fin DOF → Ieee K
  velocities : Fin DOF → Ieee K
  torques : Fin DOF → Ieee K
  barrierMargin : Ieee K
  clamped : Bool
  errorCode : Option Nat
  watchdogTripped : Bool

/-- Where the publication of a tick stands; with nothing left to store, the even
sequence is next. -/
inductive PublishPc (K : Type) where
  | idle
  | storeOdd (frame : TelemetrySlot K) (currentSeq : Nat)
  | storeField (frame : TelemetrySlot K) (currentSeq : Nat) (pending : List TelemetryField)

/-- Where a `read_telemetry` stands, with the attempts it has left after this one. -/
inductive SlicePc (K : Type) where
  | idle
  | loadSeq (attempts : Nat)
  | loadField (attempts : Nat) (raw : TelemetryField → Word K) (pending : List TelemetryField)

structure TelemetryReader (K : Type) where
  heartbeatCounter : Nat
  pc : SlicePc K

/-- The daemon, the readers and the slot between them, with the frames published
and the dictionaries returned so far. -/
structure TelemetryLink (ι K : Type) where
  slot : TelemetryField → Word K
  heartbeatPython : Nat
  daemon : PublishPc K
  readers : ι → TelemetryReader K
  published : List (TelemetrySlot K)
  returned : List (TelemetryReading K)

inductive TelemetryTurn (ι K : Type) where
  | daemon (frame : TelemetrySlot K)
  | reader (client : ι)

section Step

variable {ι K : Type} [Field K]

/-- The client's test of a sequence number. -/
def ReadSafe (seq : Nat) : Prop := seq % 2 = 0 ∧ seq ≠ 0

instance (seq : Nat) : Decidable (ReadSafe seq) := inferInstanceAs (Decidable (_ ∧ _))

def TelemetrySlot.reading (slot : TelemetrySlot K) : TelemetryReading K where
  sequence := slot.seq
  timestampNs := slot.timestampNs
  positions := slot.jointPositions
  velocities := slot.jointVelocities
  torques := slot.appliedTorques
  barrierMargin := slot.barrierMargin
  clamped := decide (slot.cbfIntervention ≠ 0)
  errorCode := some slot.errorCode
  watchdogTripped := decide (slot.watchdogTripped ≠ 0)

/-- What is returned after ten failed attempts. -/
def emptyReading : TelemetryReading K :=
  ⟨0, 0, zeroTorque, zeroTorque, zeroTorque, .fin 0, false, none, false⟩

def initialTelemetry : TelemetrySlot K :=
  ⟨0, 0, zeroTorque, zeroTorque, zeroTorque, .fin 0, 0, 0, 0⟩

def TelemetryLink.start : TelemetryLink ι K where
  slot := initialTelemetry.word
  heartbeatPython := 0
  daemon := .idle
  readers := fun _ => ⟨0, .idle⟩
  published := []
  returned := []

/-- One access of a tick's publication; an idle daemon starts the next one. -/
def TelemetryLink.daemonStep (s : TelemetryLink ι K) (frame : TelemetrySlot K) :
    TelemetryLink ι K :=
  match s.daemon with
  | .idle => { s with daemon := .storeOdd frame (s.slot .seq).toNat }
  | .storeOdd frame currentSeq =>
    { s with
      slot := Function.update s.slot .seq (.uint ((currentSeq + 1) % 2 ^ 64))
      daemon := .storeField frame currentSeq publishFields }
  | .storeField frame currentSeq (f :: rest) =>
    { s with
      slot := Function.update s.slot f (frame.word f)
      daemon := .storeField frame currentSeq rest }
  | .storeField frame currentSeq [] =>
    let seq := (currentSeq + 2) % 2 ^ 64
    { s with
      slot := Function.update s.slot .seq (.uint seq)
      daemon := .idle
      published := s.published ++ [{ frame with seq := seq }] }

variable [DecidableEq ι]

def TelemetryLink.setReader (s : TelemetryLink ι K) (client : ι) (pc : SlicePc K) :
    TelemetryLink ι K :=
  { s with
    readers := Function.update s.readers client ⟨(s.readers client).heartbeatCounter, pc⟩ }

/-- One access of a client that reads telemetry; an idle one starts the next read
with a heartbeat. -/
def TelemetryLink.readerStep (s : TelemetryLink ι K) (client : ι) : TelemetryLink ι K :=
  match (s.readers client).pc with
  | .idle =>
    let counter := (s.readers client).heartbeatCounter + 1
    if counter < 2 ^ 64 then
      { s with
        heartbeatPython := counter
        readers := Function.update s.readers client ⟨counter, .loadSeq 9⟩ }
    else { s with readers := Function.update s.readers client ⟨counter, .idle⟩ }
  | .loadSeq attempts =>
    s.setReader client
      (.loadField attempts (Function.update initialTelemetry.word .seq (s.slot .seq)) sliceFields)
  | .loadField attempts raw (f :: rest) =>
    s.setReader client (.loadField attempts (Function.update raw f (s.slot f)) rest)
  | .loadField attempts raw [] =>
    if ReadSafe (raw .seq).toNat then
      { s.setReader client .idle with
        returned := s.returned ++ [(TelemetrySlot.ofWords raw).reading] }
    else
      match attempts with
      | 0 => { s.setReader client .idle with returned := s.returned ++ [emptyReading] }
      | left + 1 => s.setReader client (.loadSeq left)

def TelemetryLink.step (s : TelemetryLink ι K) : TelemetryTurn ι K → TelemetryLink ι K
  | .daemon frame => s.daemonStep frame
  | .reader client => s.readerStep client

def TelemetryLink.run (s : TelemetryLink ι K) (turns : List (TelemetryTurn ι K)) :
    TelemetryLink ι K :=
  turns.foldl TelemetryLink.step s

def SlicePc.Awaits (f : TelemetryField) : SlicePc K → Prop
  | .loadField _ raw pending => ReadSafe (raw .seq).toNat ∧ f ∈ pending
  | _ => False

instance (f : TelemetryField) : (pc : SlicePc K) → Decidable (pc.Awaits f)
  | .idle => isFalse id
  | .loadSeq _ => isFalse id
  | .loadField _ _ _ => inferInstanceAs (Decidable (_ ∧ _))

/-- The daemon may take its turn unless it is about to store a field that some
client awaits. -/
def TelemetryLink.StoresUnawaited (s : TelemetryLink ι K) : TelemetryTurn ι K → Prop
  | .reader _ => True
  | .daemon _ =>
    match s.daemon with
    | .storeField _ _ (f :: _) => ∀ client, ¬(s.readers client).pc.Awaits f
    | _ => True

instance [Fintype ι] (s : TelemetryLink ι K) :
    (turn : TelemetryTurn ι K) → Decidable (s.StoresUnawaited turn)
  | .reader _ => isTrue trivial
  | .daemon _ => by
    unfold TelemetryLink.StoresUnawaited
    dsimp only
    split <;> infer_instance

end Step

end NeuroKinetic
