import NeuroKinetic.ShmImage

open LittleEndian CLayout PyStruct

namespace NeuroKinetic

section Formats

def telemCodes : List Code :=
  [.uint64, .uint64] ++ List.replicate 21 .float32 ++
    [.float32, .uint32, .uint32, .uint32, .bytes 16]

def cmdCodes : List Code :=
  .uint64 :: (List.replicate DOF .float32 ++ (List.replicate DOF .float32 ++
    [.float32, .float32, .uint32, .bytes 16]))

theorem parse_telemFormat : parse telemFormat = some telemCodes := by
  decide

theorem parse_cmdFormat : parse cmdFormat = some cmdCodes := by
  decide

theorem parse_heartbeatFormat : parse heartbeatFormat = some [.uint64] := by
  decide

/-- Each item of the telemetry format lies where C++ has its member. -/
theorem telemetry_floats (i : Fin DOF) :
    (telemCodes[2 + (i : Nat)]? = some .float32 ∧
      telemOffset + calcsize (telemCodes.take (2 + i)) = telemetryMember 2 + i * floatType.size) ∧
    (telemCodes[9 + (i : Nat)]? = some .float32 ∧
      telemOffset + calcsize (telemCodes.take (9 + i)) = telemetryMember 3 + i * floatType.size) ∧
    (telemCodes[16 + (i : Nat)]? = some .float32 ∧
      telemOffset + calcsize (telemCodes.take (16 + i)) =
        telemetryMember 4 + i * floatType.size) := by
  revert i
  decide

theorem command_floats (i : Fin DOF) :
    (cmdCodes[1 + (i : Nat)]? = some .float32 ∧
      cmdOffset + calcsize (cmdCodes.take (1 + i)) = commandMember 1 + i * floatType.size) ∧
    (cmdCodes[8 + (i : Nat)]? = some .float32 ∧
      cmdOffset + calcsize (cmdCodes.take (8 + i)) = commandMember 2 + i * floatType.size) := by
  revert i
  decide

end Formats

section Reading

variable {K : Type} [Field K] {m : ShmImage}

/-- What `struct.unpack` makes of the telemetry slice. -/
def unpackedTelemetry (m : ShmImage) : List (Value K) :=
  unpackFrom telemCodes (slice m.bytes telemOffset (calcsize telemCodes)) 0

theorem unpack_telemetry :
    unpack telemFormat (slice m.bytes telemOffset (calcsize telemCodes)) =
      .ok (unpackedTelemetry m : List (Value K)) := by
  have size : (slice m.bytes telemOffset (calcsize telemCodes)).length = calcsize telemCodes :=
    length_slice (by rw [m.size]; decide)
  simp only [unpack, parse_telemFormat, if_pos size, unpackedTelemetry]

theorem unpacked_getD {k : Nat} {c : Code} (code : telemCodes[k]? = some c)
    (inside : calcsize (telemCodes.take k) + c.size ≤ calcsize telemCodes) :
    (unpackedTelemetry m : List (Value K)).getD k (.int 0) =
      c.unpack (slice m.bytes (telemOffset + calcsize (telemCodes.take k)) c.size) := by
  rw [unpackedTelemetry, List.getD_eq_getElem?_getD, unpackFrom_getElem?, code, Option.map_some,
    Option.getD_some, Nat.zero_add, slice_slice _ inside]

theorem unpacked_float {k : Nat} (code : telemCodes[k]? = some .float32)
    (inside : calcsize (telemCodes.take k) + 4 ≤ calcsize telemCodes) :
    ((unpackedTelemetry m : List (Value K)).getD k (.int 0)).toFloat =
      loadFloat m (telemOffset + calcsize (telemCodes.take k)) := by
  rw [unpacked_getD code inside]
  simp only [Code.unpack, Value.toFloat, loadFloat]
  rw [load_slice _ (le_refl 4), Nat.add_zero]

theorem unpacked_uint64 {k : Nat} (code : telemCodes[k]? = some .uint64)
    (inside : calcsize (telemCodes.take k) + 8 ≤ calcsize telemCodes) :
    ((unpackedTelemetry m : List (Value K)).getD k (.int 0)).toInt =
      (load 64 m.bytes (telemOffset + calcsize (telemCodes.take k))).toNat := by
  rw [unpacked_getD code inside]
  simp only [Code.unpack, Value.toInt]
  rw [load_slice _ (le_refl 8), Nat.add_zero]

theorem unpacked_uint32 {k : Nat} (code : telemCodes[k]? = some .uint32)
    (inside : calcsize (telemCodes.take k) + 4 ≤ calcsize telemCodes) :
    ((unpackedTelemetry m : List (Value K)).getD k (.int 0)).toInt =
      (load 32 m.bytes (telemOffset + calcsize (telemCodes.take k))).toNat := by
  rw [unpacked_getD code inside]
  simp only [Code.unpack, Value.toInt]
  rw [load_slice _ (le_refl 4), Nat.add_zero]

/-- Item for item, the dictionary has the members of the C++ slot. -/
theorem dictionary_unpacked :
    dictionary (unpackedTelemetry m : List (Value K)) = m.telemetry.reading := by
  have positions : floatsFrom (unpackedTelemetry m : List (Value K)) 2 =
      m.telemetry.jointPositions := by
    funext i
    obtain ⟨code, place⟩ := (telemetry_floats i).1
    exact (unpacked_float code (by revert i; decide)).trans (congrArg (loadFloat m) place)
  have velocities : floatsFrom (unpackedTelemetry m : List (Value K)) 9 =
      m.telemetry.jointVelocities := by
    funext i
    obtain ⟨code, place⟩ := (telemetry_floats i).2.1
    exact (unpacked_float code (by revert i; decide)).trans (congrArg (loadFloat m) place)
  have torques : floatsFrom (unpackedTelemetry m : List (Value K)) 16 =
      m.telemetry.appliedTorques := by
    funext i
    obtain ⟨code, place⟩ := (telemetry_floats i).2.2
    exact (unpacked_float code (by revert i; decide)).trans (congrArg (loadFloat m) place)
  have seq := unpacked_uint64 (K := K) (m := m) (k := 0) rfl (by decide)
  have timestamp := unpacked_uint64 (K := K) (m := m) (k := 1) rfl (by decide)
  have margin := unpacked_float (K := K) (m := m) (k := 23) rfl (by decide)
  have intervention := unpacked_uint32 (K := K) (m := m) (k := 24) rfl (by decide)
  have error := unpacked_uint32 (K := K) (m := m) (k := 25) rfl (by decide)
  have watchdog := unpacked_uint32 (K := K) (m := m) (k := 26) rfl (by decide)
  simp only [dictionary, positions, velocities, torques, seq, timestamp, margin, intervention,
    error, watchdog]
  rfl

theorem readAttempts_eq (attempts : Nat) :
    (readAttempts m (attempts + 1) : Except Raised (TelemetryReading K)) =
      .ok (if ReadSafe (m.telemetry (K := K)).seq then m.telemetry.reading else emptyReading) := by
  have sequence : (m.telemetry.reading : TelemetryReading K).sequence =
      (m.telemetry (K := K)).seq := rfl
  have size : ((parse telemFormat).map calcsize).getD 0 = calcsize telemCodes := by
    rw [parse_telemFormat]
    rfl
  induction attempts with
  | zero =>
    simp only [readAttempts, size, unpack_telemetry, dictionary_unpacked, sequence]
    split <;> rfl
  | succ attempts ih =>
    rw [readAttempts]
    simp only [size, unpack_telemetry, dictionary_unpacked, sequence]
    by_cases safe : ReadSafe (m.telemetry (K := K)).seq
    · rw [if_pos safe, if_pos safe]
    · rw [if_neg safe, ih]

end Reading

section Stores

theorem pack_counter (counter : Nat) :
    pack heartbeatFormat [(.int counter : Value ℚ)] =
      if counter < 2 ^ 64 then .ok (toBytes 8 counter) else .error .structError := by
  have length : [Code.uint64].length = [(.int counter : Value ℚ)].length := rfl
  simp only [pack, parse_heartbeatFormat, if_pos length, packItems, Code.pack]
  by_cases room : counter < 2 ^ 64
  · simp only [if_pos room, List.append_nil]
  · simp only [if_neg room]

theorem assign_eq (m : ShmImage) {start stop : Nat} (payload : List UInt8)
    (size : start + payload.length = stop) (room : stop ≤ shmTotalSize) :
    ∃ after, m.assign start stop payload = .ok after ∧
      after.bytes = splice m.bytes start payload := by
  rw [ShmImage.assign, dif_pos ⟨size, room⟩]
  exact ⟨_, rfl, rfl⟩

/-- A heartbeat stores its eight bytes, or raises and stores nothing. -/
theorem ByteClient.sendHeartbeat_cases (c : ByteClient) :
    (c.heartbeatCounter + 1 < 2 ^ 64 ∧ ∃ buf, c.sendHeartbeat =
        (⟨c.heartbeatCounter + 1, buf⟩, .ok ()) ∧
        buf.bytes = splice c.buf.bytes heartbeatPyOffset (toBytes 8 (c.heartbeatCounter + 1))) ∨
      (¬c.heartbeatCounter + 1 < 2 ^ 64 ∧
        c.sendHeartbeat = (⟨c.heartbeatCounter + 1, c.buf⟩, .error .structError)) := by
  by_cases room : c.heartbeatCounter + 1 < 2 ^ 64
  · left
    have size : heartbeatPyOffset + (toBytes 8 (c.heartbeatCounter + 1)).length =
        heartbeatPyOffset + 8 := by
      rw [length_toBytes]
    obtain ⟨buf, stored, bytes⟩ := assign_eq c.buf _ size (by decide)
    refine ⟨room, buf, ?_, bytes⟩
    simp only [ByteClient.sendHeartbeat, pack_counter, if_pos room, stored]
  · right
    refine ⟨room, ?_⟩
    simp only [ByteClient.sendHeartbeat, pack_counter, if_neg room]

/-- A heartbeat is outside of both slots. -/
theorem heartbeat_outside (m : ShmImage) (counter : Nat) {i : Nat}
    (outside : i < 16 ∨ 24 ≤ i) :
    (splice m.bytes heartbeatPyOffset (toBytes 8 counter))[i]? = m.bytes[i]? := by
  have room : heartbeatPyOffset ≤ m.bytes.length := by
    rw [m.size]
    decide
  refine getElem?_splice room ?_
  rw [length_toBytes]
  exact outside

variable {K : Type} [Field K]

variable {m other : ShmImage} {position start : Nat}

theorem load_after {bits : Nat} (same : ∀ i, position ≤ i → m.bytes[i]? = other.bytes[i]?)
    (after : position ≤ start) : load bits m.bytes start = load bits other.bytes start :=
  load_congr fun i low _ => same i (after.trans low)

theorem loadFloat_after (same : ∀ i, position ≤ i → m.bytes[i]? = other.bytes[i]?)
    (after : position ≤ start) : (loadFloat m start : Ieee K) = loadFloat other start :=
  congrArg Binary32.decode (load_after same after)

theorem loadFloats_after (same : ∀ i, position ≤ i → m.bytes[i]? = other.bytes[i]?)
    (after : position ≤ start) :
    (fun i : Fin DOF => (loadFloat m (start + i * floatType.size) : Ieee K)) =
      fun i : Fin DOF => loadFloat other (start + i * floatType.size) :=
  funext fun _ => loadFloat_after same (after.trans (Nat.le_add_right start _))

theorem command_congr (same : ∀ i, cmdOffset ≤ i → m.bytes[i]? = other.bytes[i]?) :
    (m.command : CommandSlot K) = other.command := by
  rw [ShmImage.command, ShmImage.command, load_after same (by decide),
    loadFloats_after same (by decide), loadFloats_after same (by decide),
    loadFloat_after same (by decide), loadFloat_after same (by decide), load_after same (by decide)]

theorem telemetry_congr (same : ∀ i, telemOffset ≤ i → m.bytes[i]? = other.bytes[i]?) :
    (m.telemetry : TelemetrySlot K) = other.telemetry := by
  rw [ShmImage.telemetry, ShmImage.telemetry, load_after same (by decide),
    load_after same (by decide), loadFloats_after same (by decide),
    loadFloats_after same (by decide), loadFloats_after same (by decide),
    loadFloat_after same (by decide), load_after same (by decide), load_after same (by decide),
    load_after same (by decide)]

/-- What a client reads of a frame that may be read is what C++ has written there. -/
theorem readTelemetry_safe {c : ByteClient} (safe : ReadSafe (c.buf.telemetry (K := K)).seq) :
    (c.readTelemetry (K := K)).2 =
      if c.heartbeatCounter + 1 < 2 ^ 64 then .ok c.buf.telemetry.reading
      else .error .structError := by
  rcases c.sendHeartbeat_cases with ⟨room, buf, sent, beat⟩ | ⟨full, raised⟩
  · have same : (buf.telemetry : TelemetrySlot K) = c.buf.telemetry := by
      refine telemetry_congr fun i after => ?_
      rw [beat]
      exact heartbeat_outside c.buf _ (Or.inr (le_trans (by decide) after))
    rw [if_pos room, ByteClient.readTelemetry, sent]
    simp only [readAttempts_eq, same, if_pos safe]
  · rw [if_neg full, ByteClient.readTelemetry, raised]

end Stores

end NeuroKinetic
