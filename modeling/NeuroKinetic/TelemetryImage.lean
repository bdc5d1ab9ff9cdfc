import NeuroKinetic.Library.RecordImage
import NeuroKinetic.PublishedFrames
import NeuroKinetic.ShmFormat

open LittleEndian CLayout RecordImage Binary32

namespace NeuroKinetic

section Layout

/-- Where C++ has a field of the telemetry slot. -/
def TelemetryField.offset : TelemetryField → Nat
  | .seq => telemetryMember 0
  | .timestampNs => telemetryMember 1
  | .jointPosition i => telemetryMember 2 + i * floatType.size
  | .jointVelocity i => telemetryMember 3 + i * floatType.size
  | .appliedTorque i => telemetryMember 4 + i * floatType.size
  | .barrierMargin => telemetryMember 5
  | .cbfIntervention => telemetryMember 6
  | .errorCode => telemetryMember 7
  | .watchdogTripped => telemetryMember 8

def TelemetryField.bits : TelemetryField → Nat
  | .seq | .timestampNs => 64
  | _ => 32

/-- Where the padding of the telemetry slot starts. -/
def telemetryPadding : Nat := telemetryMember 9

theorem mem_telemetryFields (f : TelemetryField) : f ∈ .seq :: publishFields := by
  by_cases first : f = .seq
  · rw [first]
    exact List.mem_cons_self
  · exact List.mem_cons_of_mem _ (mem_publishFields first)

theorem telemetryFields_apart : ∀ f ∈ TelemetryField.seq :: publishFields,
    ∀ g ∈ TelemetryField.seq :: publishFields, f ≠ g →
      f.offset + f.bits / 8 ≤ g.offset ∨ g.offset + g.bits / 8 ≤ f.offset := by
  decide +kernel

def telemetryLayout : Layout TelemetryField where
  offset := TelemetryField.offset
  bits := TelemetryField.bits
  whole := fun f => by cases f <;> simp [TelemetryField.bits]
  apart := fun f g => telemetryFields_apart f (mem_telemetryFields f) g (mem_telemetryFields g)

theorem telemetryFields_within : ∀ f ∈ TelemetryField.seq :: publishFields,
    telemOffset ≤ f.offset ∧ f.offset + f.bits / 8 ≤ telemetryPadding := by
  decide +kernel

theorem telemetryLayout_within : telemetryLayout.Within telemOffset telemetryPadding :=
  fun f => telemetryFields_within f (mem_telemetryFields f)

end Layout

section Publish

variable {K : Type} [Field K]

/-- The slot that the bits of a frame are. -/
def frameSlot (frame : telemetryLayout.Frame) : TelemetrySlot K where
  seq := (frame .seq).toNat
  timestampNs := (frame .timestampNs).toNat
  jointPositions := fun i => decode (frame (.jointPosition i))
  jointVelocities := fun i => decode (frame (.jointVelocity i))
  appliedTorques := fun i => decode (frame (.appliedTorque i))
  barrierMargin := decode (frame .barrierMargin)
  cbfIntervention := (frame .cbfIntervention).toNat
  errorCode := (frame .errorCode).toNat
  watchdogTripped := (frame .watchdogTripped).toNat

theorem ShmImage.telemetry_eq (m : ShmImage) :
    (m.telemetry : TelemetrySlot K) = frameSlot (telemetryLayout.get m.bytes) := rfl

theorem ShmImage.telemetry_slot {m other : ShmImage}
    (same : ∀ i, telemOffset ≤ i → i < telemetryPadding → m.bytes[i]? = other.bytes[i]?) :
    (m.telemetry : TelemetrySlot K) = other.telemetry := by
  rw [ShmImage.telemetry_eq, ShmImage.telemetry_eq,
    Layout.get_congr telemetryLayout_within same]

/-- What a tick stores in each field: a conversion to float for every double. -/
def frameBits [LinearOrder K] [FloorRing K] (seq : BitVec 64) (systemClock : Int)
    (after : DaemonState K × TickOutput K) : telemetryLayout.Frame
  | .seq => seq
  | .timestampNs => BitVec.ofInt 64 systemClock
  | .jointPosition i => cast (after.1.state.q i)
  | .jointVelocity i => cast (after.1.state.qDot i)
  | .appliedTorque i => cast (after.2.safety.safeTorque i)
  | .barrierMargin => cast after.2.safety.barrierMargin
  | .cbfIntervention => if after.2.safety.interventionTriggered then 1#32 else 0#32
  | .errorCode =>
    match after.2.result with
    | .ok _ => 0#32
    | .error _ => 1#32
  | .watchdogTripped => if after.1.watchdog.tripped then 1#32 else 0#32

theorem frameSlot_bits [LinearOrder K] [FloorRing K] (seq : BitVec 64) (systemClock : Int)
    (after : DaemonState K × TickOutput K) :
    frameSlot (frameBits seq systemClock after) = publishedFrame seq.toNat systemClock after := by
  have flag : ∀ b : Bool, (if b then 1#32 else 0#32).toNat = if b then 1 else 0 := by
    decide
  have code : ∀ result : Except KernelErrorCode (SafetyOutput K),
      (match result with
        | .ok _ => 0#32
        | .error _ => 1#32).toNat =
      match result with
        | .ok _ => 0
        | .error _ => 1 := by
    intro result
    cases result <;> rfl
  refine (TelemetrySlot.mk.injEq ..).mpr ⟨rfl, rfl, rfl, rfl, rfl, rfl, flag _, ?_, flag _⟩
  exact code after.2.result

/-- The stores of a publication, the odd sequence first and the frame's own last. -/
def publishBytes (bytes : List UInt8) (odd : BitVec (telemetryLayout.bits .seq))
    (frame : telemetryLayout.Frame) : List UInt8 :=
  let stored := telemetryLayout.putAll frame publishFields (telemetryLayout.put bytes .seq odd)
  telemetryLayout.put stored .seq (frame .seq)

section Stored

variable {bytes : List UInt8} (size : bytes.length = shmTotalSize)
  (odd : BitVec (telemetryLayout.bits .seq)) (frame : telemetryLayout.Frame)

include size

theorem length_publishOdd : (telemetryLayout.put bytes .seq odd).length = shmTotalSize := by
  rw [Layout.length_put _ telemetryLayout_within (by rw [size]; decide), size]

theorem length_publishFields : (telemetryLayout.putAll frame publishFields
    (telemetryLayout.put bytes .seq odd)).length = shmTotalSize := by
  have room := length_publishOdd size odd
  rw [Layout.length_putAll _ _ telemetryLayout_within (by rw [room]; decide), room]

theorem length_publishBytes : (publishBytes bytes odd frame).length = shmTotalSize := by
  have room := length_publishFields size odd frame
  rw [publishBytes, Layout.length_put _ telemetryLayout_within (by rw [room]; decide), room]

theorem get_publishBytes : telemetryLayout.get (publishBytes bytes odd frame) = frame := by
  have started := length_publishOdd size odd
  have room := length_publishFields size odd frame
  funext f
  rw [publishBytes]
  by_cases first : f = .seq
  · subst first
    exact Layout.get_put_self _ telemetryLayout_within (by rw [room]; decide)
  · rw [Layout.get_put_of_ne _ telemetryLayout_within (by rw [room]; decide) first,
      Layout.get_putAll _ _ telemetryLayout_within (by rw [started]; decide),
      if_pos (mem_publishFields first)]

theorem getElem?_publishBytes {i : Nat} (outside : i < telemOffset ∨ telemetryPadding ≤ i) :
    (publishBytes bytes odd frame)[i]? = bytes[i]? := by
  have started := length_publishOdd size odd
  have room := length_publishFields size odd frame
  obtain ⟨low, high⟩ := telemetryLayout_within .seq
  rw [publishBytes, Layout.getElem?_put _ telemetryLayout_within (by rw [room]; decide) (by omega),
    Layout.getElem?_putAll _ _ telemetryLayout_within (by rw [started]; decide) outside,
    Layout.getElem?_put _ telemetryLayout_within (by rw [size]; decide) (by omega)]

end Stored

variable [LinearOrder K] [FloorRing K]

/-- Step 6 of a tick. -/
def ShmImage.publish (m : ShmImage) (systemClock : Int) (after : DaemonState K × TickOutput K) :
    ShmImage :=
  let currentSeq := load 64 m.bytes (telemetryMember 0)
  let odd : BitVec 64 := currentSeq + 1
  ⟨publishBytes m.bytes odd (frameBits (currentSeq + 2) systemClock after),
    length_publishBytes m.size _ _⟩

/-- What a tick has published is what C++ has in its slot. -/
theorem ShmImage.publish_telemetry (m : ShmImage) (systemClock : Int)
    (after : DaemonState K × TickOutput K) :
    (m.publish systemClock after).telemetry =
      publishedFrame (((m.telemetry (K := K)).seq + 2) % 2 ^ 64) systemClock after := by
  have stored : telemetryLayout.get (m.publish systemClock after).bytes =
      frameBits (load 64 m.bytes (telemetryMember 0) + 2) systemClock after :=
    get_publishBytes m.size _ _
  rw [ShmImage.telemetry_eq, stored, frameSlot_bits, BitVec.toNat_add]
  rfl

theorem ShmImage.getElem?_publish (m : ShmImage) (systemClock : Int)
    (after : DaemonState K × TickOutput K) {i : Nat} (outside : i < telemOffset ∨ telemetryPadding ≤ i) :
    (m.publish systemClock after).bytes[i]? = m.bytes[i]? :=
  getElem?_publishBytes m.size _ _ outside

end Publish

end NeuroKinetic
