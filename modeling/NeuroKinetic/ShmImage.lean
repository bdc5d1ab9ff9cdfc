import NeuroKinetic.Library.PyStruct
import NeuroKinetic.TelemetrySeqlock
import Mathlib.Data.Rat.Floor

open LittleEndian CLayout PyStruct

namespace NeuroKinetic

section Layout

def uint64Type : CType := ⟨8, 8⟩

def uint32Type : CType := ⟨4, 4⟩

def floatType : CType := ⟨4, 4⟩

def uint8Type : CType := ⟨1, 1⟩

/-- The members of `TelemetrySlot`, its padding last. -/
def telemetryMembers : List CType :=
  [uint64Type, uint64Type, floatType.array DOF, floatType.array DOF, floatType.array DOF,
    floatType, uint32Type, uint32Type, uint32Type, uint8Type.array 16]

def commandMembers : List CType :=
  [uint64Type, floatType.array DOF, floatType.array DOF, floatType, floatType, uint32Type,
    uint8Type.array 16]

def segmentMembers : List CType :=
  [uint32Type, uint64Type, uint64Type, CType.struct 64 telemetryMembers,
    CType.struct 64 commandMembers]

/-- The offset in the segment of a member of the telemetry slot. -/
def telemetryMember (k : Nat) : Nat := offsetOf segmentMembers 3 + offsetOf telemetryMembers k

def commandMember (k : Nat) : Nat := offsetOf segmentMembers 4 + offsetOf commandMembers k

def shmTotalSize : Nat := 384

theorem segment_size : (CType.struct 64 segmentMembers).size = shmTotalSize := by
  decide

end Layout

/-- The mapped file, of the size that both sides map. -/
structure ShmImage where
  bytes : List UInt8
  size : bytes.length = shmTotalSize

section Views

variable {K : Type} [Field K]

def loadFloat (m : ShmImage) (offset : Nat) : Ieee K := Binary32.decode (load 32 m.bytes offset)

/-- What the daemon reads as `heartbeat_python`. -/
def ShmImage.heartbeatPython (m : ShmImage) : Nat :=
  (load 64 m.bytes (offsetOf segmentMembers 2)).toNat

/-- What the daemon reads as the command slot. -/
def ShmImage.command (m : ShmImage) : CommandSlot K where
  seq := (load 64 m.bytes (commandMember 0)).toNat
  nominalTorques := fun i => loadFloat m (commandMember 1 + i * floatType.size)
  targetPositions := fun i => loadFloat m (commandMember 2 + i * floatType.size)
  obstacleSafetyMargin := loadFloat m (commandMember 3)
  barrierGamma := loadFloat m (commandMember 4)
  commandFlags := (load 32 m.bytes (commandMember 5)).toNat

/-- What the daemon has written as the telemetry slot. -/
def ShmImage.telemetry (m : ShmImage) : TelemetrySlot K where
  seq := (load 64 m.bytes (telemetryMember 0)).toNat
  timestampNs := (load 64 m.bytes (telemetryMember 1)).toNat
  jointPositions := fun i => loadFloat m (telemetryMember 2 + i * floatType.size)
  jointVelocities := fun i => loadFloat m (telemetryMember 3 + i * floatType.size)
  appliedTorques := fun i => loadFloat m (telemetryMember 4 + i * floatType.size)
  barrierMargin := loadFloat m (telemetryMember 5)
  cbfIntervention := (load 32 m.bytes (telemetryMember 6)).toNat
  errorCode := (load 32 m.bytes (telemetryMember 7)).toNat
  watchdogTripped := (load 32 m.bytes (telemetryMember 8)).toNat

end Views

section Client

def heartbeatPyOffset : Nat := 16

def telemOffset : Nat := 64

def cmdOffset : Nat := 256

def heartbeatFormat : List Char := "=Q".toList

def telemFormat : List Char := "=QQ7f7f7ffIII16s".toList

def cmdFormat : List Char := "=Q7f7fffI16s".toList

/-- `buf[start:stop] = payload`. -/
def ShmImage.assign (m : ShmImage) (start stop : Nat) (payload : List UInt8) :
    Except Raised ShmImage :=
  if h : start + payload.length = stop ∧ stop ≤ shmTotalSize then
    .ok ⟨splice m.bytes start payload, by rw [length_splice (by rw [m.size]; omega), m.size]⟩
  else .error .indexError

/-- A client over the bytes of the segment. -/
structure ByteClient where
  heartbeatCounter : Nat
  buf : ShmImage

def ByteClient.sendHeartbeat (c : ByteClient) : ByteClient × Except Raised Unit :=
  let counter := c.heartbeatCounter + 1
  match pack heartbeatFormat [(.int counter : Value ℚ)] with
  | .error e => (⟨counter, c.buf⟩, .error e)
  | .ok payload =>
    match c.buf.assign heartbeatPyOffset (heartbeatPyOffset + 8) payload with
    | .error e => (⟨counter, c.buf⟩, .error e)
    | .ok buf => (⟨counter, buf⟩, .ok ())

variable {K : Type} [Field K]

/-- The values that a dispatch packs, in the order of its format. -/
def commandValues (seq : Nat) (torques : List (Ieee K)) (safetyMargin gamma : Ieee K) :
    List (Value K) :=
  .int seq :: (torques.map .float ++ (List.replicate DOF (.float (.fin 0)) ++
    [.float safetyMargin, .float gamma, .int 1, .bytes (List.replicate 16 0)]))

def ByteClient.dispatchVlaTorque [LinearOrder K] [FloorRing K] (torques : List (Ieee K))
    (safetyMargin gamma : Ieee K) (c : ByteClient) : ByteClient × Except Raised Unit :=
  match c.sendHeartbeat with
  | (c, .error e) => (c, .error e)
  | (c, .ok ()) =>
    match (unpack heartbeatFormat (slice c.buf.bytes cmdOffset 8) : Except _ (List (Value K))) with
    | .error e => (c, .error e)
    | .ok unpacked =>
      let currSeq := (unpacked.getD 0 (.int 0)).toInt
      match pack cmdFormat (commandValues (finalSeq currSeq) torques safetyMargin gamma) with
      | .error e => (c, .error e)
      | .ok payload =>
        match c.buf.assign cmdOffset (cmdOffset + payload.length) payload with
        | .error e => (c, .error e)
        | .ok buf => (⟨c.heartbeatCounter, buf⟩, .ok ())

/-- The seven floats of `unpacked[start:start + 7]`. -/
def floatsFrom (unpacked : List (Value K)) (start : Nat) : Fin DOF → Ieee K :=
  fun i => (unpacked.getD (start + i) (.int 0)).toFloat

def dictionary (unpacked : List (Value K)) : TelemetryReading K where
  sequence := (unpacked.getD 0 (.int 0)).toInt
  timestampNs := (unpacked.getD 1 (.int 0)).toInt
  positions := floatsFrom unpacked 2
  velocities := floatsFrom unpacked 9
  torques := floatsFrom unpacked 16
  barrierMargin := (unpacked.getD 23 (.int 0)).toFloat
  clamped := decide ((unpacked.getD 24 (.int 0)).toInt ≠ 0)
  errorCode := some (unpacked.getD 25 (.int 0)).toInt
  watchdogTripped := decide ((unpacked.getD 26 (.int 0)).toInt ≠ 0)

/-- The attempts that are left, over a segment that nobody writes. -/
def readAttempts (m : ShmImage) : Nat → Except Raised (TelemetryReading K)
  | 0 => .ok emptyReading
  | attempts + 1 =>
    let size := ((parse telemFormat).map calcsize).getD 0
    match (unpack telemFormat (slice m.bytes telemOffset size) : Except _ (List (Value K))) with
    | .error e => .error e
    | .ok unpacked =>
      let reading := dictionary unpacked
      if ReadSafe reading.sequence then .ok reading else readAttempts m attempts

def ByteClient.readTelemetry (c : ByteClient) : ByteClient × Except Raised (TelemetryReading K) :=
  match c.sendHeartbeat with
  | (c, .error e) => (c, .error e)
  | (c, .ok ()) => (c, readAttempts c.buf 10)

end Client

end NeuroKinetic
