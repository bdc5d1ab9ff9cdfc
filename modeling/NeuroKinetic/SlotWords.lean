import NeuroKinetic.ShmClient
import Mathlib.Tactic.Tauto

namespace NeuroKinetic

inductive Word (K : Type) where
  | uint (n : Nat)
  | float (x : Ieee K)

def Word.toNat {K : Type} : Word K → Nat
  | .uint n => n
  | .float _ => 0

def Word.toFloat {K : Type} [Zero K] : Word K → Ieee K
  | .uint _ => .fin 0
  | .float x => x

/-- Fields of the command slot, in address order. -/
inductive CommandField where
  | seq
  | nominalTorque (i : Fin DOF)
  | targetPosition (i : Fin DOF)
  | obstacleSafetyMargin
  | barrierGamma
  | commandFlags
  deriving DecidableEq, Repr

def CommandSlot.word {K : Type} (slot : CommandSlot K) : CommandField → Word K
  | .seq => .uint slot.seq
  | .nominalTorque i => .float (slot.nominalTorques i)
  | .targetPosition i => .float (slot.targetPositions i)
  | .obstacleSafetyMargin => .float slot.obstacleSafetyMargin
  | .barrierGamma => .float slot.barrierGamma
  | .commandFlags => .uint slot.commandFlags

/-- The stores of a dispatch that follow the store of its sequence. -/
def payloadFields : List CommandField :=
  (List.finRange DOF).map .nominalTorque ++ (List.finRange DOF).map .targetPosition ++
    [.obstacleSafetyMargin, .barrierGamma, .commandFlags]

/-- What a tick loads between its two loads of the sequence. -/
def ingestFields : List CommandField :=
  (List.finRange DOF).map .nominalTorque ++ [.commandFlags, .obstacleSafetyMargin]

theorem ingestFields_subset {f : CommandField} (h : f ∈ ingestFields) : f ∈ payloadFields := by
  simp only [ingestFields, payloadFields, List.mem_append, List.mem_cons] at h ⊢
  tauto

theorem seq_not_payload : CommandField.seq ∉ payloadFields := by
  decide

theorem mem_payloadFields {f : CommandField} (h : f ≠ .seq) : f ∈ payloadFields := by
  cases f <;> simp_all [payloadFields]

structure TelemetrySlot (K : Type) where
  seq : Nat
  timestampNs : Nat
  jointPositions : Fin DOF → Ieee K
  jointVelocities : Fin DOF → Ieee K
  appliedTorques : Fin DOF → Ieee K
  barrierMargin : Ieee K
  cbfIntervention : Nat
  errorCode : Nat
  watchdogTripped : Nat

inductive TelemetryField where
  | seq
  | timestampNs
  | jointPosition (i : Fin DOF)
  | jointVelocity (i : Fin DOF)
  | appliedTorque (i : Fin DOF)
  | barrierMargin
  | cbfIntervention
  | errorCode
  | watchdogTripped
  deriving DecidableEq, Repr

def TelemetrySlot.word {K : Type} (slot : TelemetrySlot K) : TelemetryField → Word K
  | .seq => .uint slot.seq
  | .timestampNs => .uint slot.timestampNs
  | .jointPosition i => .float (slot.jointPositions i)
  | .jointVelocity i => .float (slot.jointVelocities i)
  | .appliedTorque i => .float (slot.appliedTorques i)
  | .barrierMargin => .float slot.barrierMargin
  | .cbfIntervention => .uint slot.cbfIntervention
  | .errorCode => .uint slot.errorCode
  | .watchdogTripped => .uint slot.watchdogTripped

/-- `struct.unpack` of a raw copy. -/
def TelemetrySlot.ofWords {K : Type} [Zero K] (raw : TelemetryField → Word K) : TelemetrySlot K where
  seq := (raw .seq).toNat
  timestampNs := (raw .timestampNs).toNat
  jointPositions := fun i => (raw (.jointPosition i)).toFloat
  jointVelocities := fun i => (raw (.jointVelocity i)).toFloat
  appliedTorques := fun i => (raw (.appliedTorque i)).toFloat
  barrierMargin := (raw .barrierMargin).toFloat
  cbfIntervention := (raw .cbfIntervention).toNat
  errorCode := (raw .errorCode).toNat
  watchdogTripped := (raw .watchdogTripped).toNat

/-- The daemon's stores between its two stores of the sequence, in program order. -/
def publishFields : List TelemetryField :=
  .timestampNs :: (List.finRange DOF).flatMap
      (fun i => [.jointPosition i, .jointVelocity i, .appliedTorque i]) ++
    [.barrierMargin, .cbfIntervention, .errorCode, .watchdogTripped]

/-- What a client's slice loads after the sequence, in address order. -/
def sliceFields : List TelemetryField :=
  .timestampNs :: (List.finRange DOF).map .jointPosition ++
    (List.finRange DOF).map .jointVelocity ++ (List.finRange DOF).map .appliedTorque ++
    [.barrierMargin, .cbfIntervention, .errorCode, .watchdogTripped]

theorem TelemetrySlot.ofWords_word {K : Type} [Zero K] (slot : TelemetrySlot K) :
    TelemetrySlot.ofWords slot.word = slot := rfl

theorem seq_not_publish : TelemetryField.seq ∉ publishFields := by
  decide

theorem mem_publishFields {f : TelemetryField} (h : f ≠ .seq) : f ∈ publishFields := by
  cases f <;> simp_all [publishFields]

theorem mem_sliceFields {f : TelemetryField} : f ∈ sliceFields ↔ f ≠ .seq := by
  cases f <;> simp [sliceFields]

end NeuroKinetic
