import NeuroKinetic.ByteSystem

open LittleEndian CLayout PyStruct RidgeProjection

namespace NeuroKinetic

section Counts

variable {ι K : Type}

def ticksIn (events : List (SystemEvent ι K)) : Nat := events.countP SystemEvent.isTick

def SystemEvent.isCallOf [DecidableEq ι] (client : ι) : SystemEvent ι K → Bool
  | .call caller _ _ => decide (caller = client)
  | .tick .. => false

def callsOf [DecidableEq ι] (client : ι) (events : List (SystemEvent ι K)) : Nat :=
  events.countP (SystemEvent.isCallOf client)

/-- The number of ticks that C++ has counted. -/
def ShmImage.heartbeatCpp (m : ShmImage) : Nat := (load 64 m.bytes heartbeatCppOffset).toNat

/-- A byte of the segment that belongs to no counter, field or payload: the magic number and
the padding around the slots. -/
def Unused (i : Nat) : Prop :=
  i < heartbeatCppOffset ∨ heartbeatPyOffset + 8 ≤ i ∧ i < telemOffset ∨
    telemetryPadding ≤ i ∧ i < cmdOffset ∨ cmdOffset + calcsize cmdCodes ≤ i

instance (i : Nat) : Decidable (Unused i) := inferInstanceAs (Decidable (_ ∨ _))

end Counts

section Calls

variable {K : Type} [Field K] [LinearOrder K] [FloorRing K]

theorem ClientCall.answer_readTelemetry (c : NeuroKineticClient K)
    (telemetry : TelemetrySlot K) : ClientCall.answer c telemetry .readTelemetry =
      if c.heartbeatCounter + 1 < 2 ^ 64 then .dictionary telemetry.seen else .raised := by
  by_cases room : c.heartbeatCounter + 1 < 2 ^ 64
  · simp only [ClientCall.answer, NeuroKinetic.sendHeartbeat, if_pos room, answered]
  · simp only [ClientCall.answer, NeuroKinetic.sendHeartbeat, if_neg room, answered]

/-- A call counts one heartbeat and writes the heartbeat and the command's payload at most. -/
theorem ByteClient.call_kept [IsStrictOrderedRing K] (call : ClientCall K) (c : ByteClient) :
    (c.call call).1.heartbeatCounter = c.heartbeatCounter + 1 ∧
      ∀ i, (i < heartbeatPyOffset ∨ heartbeatPyOffset + 8 ≤ i) →
        (i < cmdOffset ∨ cmdOffset + calcsize cmdCodes ≤ i) →
        (c.call call).1.buf.bytes[i]? = c.buf.bytes[i]? := by
  have beat : c.sendHeartbeat.1.heartbeatCounter = c.heartbeatCounter + 1 ∧
      ∀ i, (i < heartbeatPyOffset ∨ heartbeatPyOffset + 8 ≤ i) →
        c.sendHeartbeat.1.buf.bytes[i]? = c.buf.bytes[i]? := by
    rcases c.sendHeartbeat_cases with ⟨_, buf, sent, bytes⟩ | ⟨_, raised⟩
    · rw [sent]
      refine ⟨rfl, fun i outside => ?_⟩
      rw [bytes]
      exact heartbeat_outside c.buf _ outside
    · rw [raised]
      exact ⟨rfl, fun _ _ => rfl⟩
  cases call with
  | sendHeartbeat => exact ⟨beat.1, fun i outside _ => beat.2 i outside⟩
  | readTelemetry =>
    simp only [ByteClient.call, c.readTelemetry_eq]
    exact ⟨beat.1, fun i outside _ => beat.2 i outside⟩
  | dispatchVlaTorque torques safetyMargin gamma =>
    have outcome := c.dispatch_outcome torques safetyMargin gamma
    simp only [ByteClient.call]
    generalize c.dispatchVlaTorque torques safetyMargin gamma = after at outcome ⊢
    cases outcome with
    | raised e buf refused kept => exact ⟨rfl, fun i outside _ => kept i outside⟩
    | sent payload buf before room packed bytes stored =>
      have total : payload.length = calcsize cmdCodes := length_packItems (pack_items packed).2
      refine ⟨rfl, fun i outside apart => ?_⟩
      rw [stored, getElem?_splice (by rw [before.size]; decide) (by rw [total]; exact apart), bytes]
      exact heartbeat_outside c.buf _ outside

end Calls

section Steps

theorem ShmImage.beatCpp_heartbeatCpp (m : ShmImage) :
    m.beatCpp.heartbeatCpp = (m.heartbeatCpp + 1) % 2 ^ 64 := by
  have stored : load 64 m.beatCpp.bytes heartbeatCppOffset =
      (load 64 m.bytes heartbeatCppOffset + 1 : BitVec 64) :=
    RecordImage.load_word _ rfl (by rw [m.size]; decide)
  rw [ShmImage.heartbeatCpp, stored, BitVec.toNat_add]
  rfl

variable {ι K : Type} [DecidableEq ι] [Field K] [LinearOrder K] [FloorRing K] [SquareRoot K]
  [ExactSolver K] (obstacles : List (Obstacle K))

theorem ByteSystem.step_tick_bytes (s : ByteSystem ι K) (tickStart systemClock : Int) {i : Nat}
    (outside : i < telemOffset ∨ telemetryPadding ≤ i) :
    (s.step obstacles (.tick tickStart systemClock)).image.bytes[i]? = s.image.beatCpp.bytes[i]? :=
  s.image.beatCpp.getElem?_publish systemClock _ outside

variable [IsStrictOrderedRing K]

theorem ByteSystem.step_heartbeatCounter (s : ByteSystem ι K) (event : SystemEvent ι K)
    (client : ι) : (s.step obstacles event).heartbeatCounter client =
      s.heartbeatCounter client + callsOf client [event] := by
  cases event with
  | tick tickStart systemClock => rfl
  | call caller time call =>
    have counted := ((s.client caller).call_kept call).1
    by_cases same : caller = client
    · subst same
      simp only [ByteSystem.step, Function.update_self, counted, callsOf, SystemEvent.isCallOf,
        List.countP_cons, List.countP_nil, decide_true, if_true]
      rfl
    · have different : client ≠ caller := fun equal => same equal.symm
      simp only [ByteSystem.step, Function.update_of_ne different, callsOf, SystemEvent.isCallOf,
        List.countP_cons, List.countP_nil, same, decide_false]
      rfl

theorem ByteSystem.step_heartbeatCpp (s : ByteSystem ι K) (event : SystemEvent ι K) :
    (s.step obstacles event).image.heartbeatCpp =
      (s.image.heartbeatCpp + ticksIn [event]) % 2 ^ 64 := by
  cases event with
  | tick tickStart systemClock =>
    have kept : (s.step obstacles (.tick tickStart systemClock)).image.heartbeatCpp =
        s.image.beatCpp.heartbeatCpp :=
      congrArg BitVec.toNat (load_congr fun i _ stop =>
        s.step_tick_bytes obstacles tickStart systemClock (Or.inl (stop.trans_le (by decide))))
    rw [kept, ShmImage.beatCpp_heartbeatCpp]
    rfl
  | call client time call =>
    have kept : (s.step obstacles (.call client time call)).image.heartbeatCpp =
        s.image.heartbeatCpp :=
      congrArg BitVec.toNat (load_congr fun i _ stop =>
        ((s.client client).call_kept call).2 i (Or.inl (stop.trans_le (by decide)))
          (Or.inl (stop.trans_le (by decide))))
    rw [kept]
    exact (Nat.mod_eq_of_lt (BitVec.isLt _)).symm

theorem ByteSystem.step_telemetrySeq (s : ByteSystem ι K) (event : SystemEvent ι K) :
    ((s.step obstacles event).image.telemetry (K := K)).seq =
      ((s.image.telemetry (K := K)).seq + 2 * ticksIn [event]) % 2 ^ 64 := by
  have view := congrArg (fun after => after.telemetry.seq) (s.view_step obstacles event)
  refine Eq.trans view ?_
  cases event with
  | tick tickStart systemClock => rfl
  | call client time call => exact (Nat.mod_eq_of_lt (BitVec.isLt _)).symm

theorem ByteSystem.step_unused (s : ByteSystem ι K) (event : SystemEvent ι K) {i : Nat}
    (unused : Unused i) : (s.step obstacles event).image.bytes[i]? = s.image.bytes[i]? := by
  have places : heartbeatCppOffset = 8 ∧ heartbeatPyOffset = 16 ∧ telemOffset = 64 ∧
      telemetryPadding = 180 ∧ cmdOffset = 256 ∧ calcsize cmdCodes = 92 := by
    decide
  simp only [Unused] at unused
  cases event with
  | tick tickStart systemClock =>
    rw [s.step_tick_bytes obstacles tickStart systemClock (by omega)]
    exact s.image.beatCpp_outside (by omega)
  | call client time call =>
    exact ((s.client client).call_kept call).2 i (by omega) (by omega)

end Steps

section Runs

variable {ι K : Type} [DecidableEq ι] [Field K] [LinearOrder K] [FloorRing K]
  [IsStrictOrderedRing K] [SquareRoot K] [ExactSolver K] (obstacles : List (Obstacle K))

omit [IsStrictOrderedRing K] [FloorRing K] [LinearOrder K] [Field K] [SquareRoot K]
  [ExactSolver K] in
theorem callsOf_cons (client : ι) (event : SystemEvent ι K) (rest : List (SystemEvent ι K)) :
    callsOf client (event :: rest) = callsOf client [event] + callsOf client rest := by
  rw [callsOf, List.countP_cons, callsOf, List.countP_cons, List.countP_nil, callsOf]
  omega

theorem ByteSystem.run_heartbeatCounter (s : ByteSystem ι K) (events : List (SystemEvent ι K))
    (client : ι) : (s.run obstacles events).heartbeatCounter client =
      s.heartbeatCounter client + callsOf client events := by
  induction events generalizing s with
  | nil => rfl
  | cons event rest ih =>
    rw [callsOf_cons, ← Nat.add_assoc, ← s.step_heartbeatCounter obstacles event]
    exact ih (s.step obstacles event)

omit [DecidableEq ι] [IsStrictOrderedRing K] [FloorRing K] [LinearOrder K] [Field K]
  [SquareRoot K] [ExactSolver K] in
theorem ticksIn_cons (event : SystemEvent ι K) (rest : List (SystemEvent ι K)) :
    ticksIn (event :: rest) = ticksIn [event] + ticksIn rest := by
  rw [ticksIn, List.countP_cons, ticksIn, List.countP_cons, List.countP_nil, ticksIn]
  omega

theorem ByteSystem.run_heartbeatCpp (s : ByteSystem ι K) (events : List (SystemEvent ι K)) :
    (s.run obstacles events).image.heartbeatCpp =
      (s.image.heartbeatCpp + ticksIn events) % 2 ^ 64 := by
  induction events generalizing s with
  | nil => exact (Nat.mod_eq_of_lt (BitVec.isLt _)).symm
  | cons event rest ih =>
    have later := ih (s.step obstacles event)
    rw [s.step_heartbeatCpp, Nat.mod_add_mod, Nat.add_assoc, ← ticksIn_cons] at later
    exact later

theorem ByteSystem.run_telemetrySeq (s : ByteSystem ι K) (events : List (SystemEvent ι K)) :
    ((s.run obstacles events).image.telemetry (K := K)).seq =
      ((s.image.telemetry (K := K)).seq + 2 * ticksIn events) % 2 ^ 64 := by
  induction events generalizing s with
  | nil => exact (Nat.mod_eq_of_lt (BitVec.isLt _)).symm
  | cons event rest ih =>
    have later := ih (s.step obstacles event)
    rw [s.step_telemetrySeq, Nat.mod_add_mod, Nat.add_assoc, ← Nat.mul_add, ← ticksIn_cons] at later
    exact later

theorem ByteSystem.run_unused (s : ByteSystem ι K) (events : List (SystemEvent ι K)) {i : Nat}
    (unused : Unused i) : (s.run obstacles events).image.bytes[i]? = s.image.bytes[i]? := by
  induction events generalizing s with
  | nil => rfl
  | cons event rest ih =>
    exact (ih (s.step obstacles event)).trans (s.step_unused obstacles event unused)

/-- The counters of a run, and the bytes that no run writes. -/
theorem segment_account (s : ByteSystem ι K) (events : List (SystemEvent ι K)) :
    (∀ client, (s.run obstacles events).heartbeatCounter client =
        s.heartbeatCounter client + callsOf client events) ∧
      (s.run obstacles events).image.heartbeatCpp =
        (s.image.heartbeatCpp + ticksIn events) % 2 ^ 64 ∧
      ((s.run obstacles events).image.telemetry (K := K)).seq =
        ((s.image.telemetry (K := K)).seq + 2 * ticksIn events) % 2 ^ 64 ∧
      ∀ i, Unused i → (s.run obstacles events).image.bytes[i]? = s.image.bytes[i]? :=
  ⟨s.run_heartbeatCounter obstacles events, s.run_heartbeatCpp obstacles events,
    s.run_telemetrySeq obstacles events, fun _ => s.run_unused obstacles events⟩

omit [IsStrictOrderedRing K] in
theorem FieldSystem.run_quiet (s : FieldSystem ι K) {calls : List (SystemEvent ι K)}
    (quiet : ∀ event ∈ calls, event.isTick = false) :
    (s.run obstacles calls).telemetry = s.telemetry := by
  refine List.foldlRecOn (motive := fun after : FieldSystem ι K =>
    after.telemetry = s.telemetry) calls _ rfl fun after kept event member => ?_
  cases event with
  | call client time call => exact kept
  | tick tickStart systemClock => exact absurd (quiet _ member) (by simp [SystemEvent.isTick])

/-- From the last tick on, every client is told that tick's frame, converted to floats and to
nothing else, for as long as its own heartbeat counter lasts. -/
theorem reads_latest_tick (s : ByteSystem ι K) (before : List (SystemEvent ι K))
    (tickStart systemClock : Int) {calls : List (SystemEvent ι K)}
    (quiet : ∀ event ∈ calls, event.isTick = false) (client : ι) :
    let reached := (s.view.run obstacles before).system
    let after := s.run obstacles (before ++ .tick tickStart systemClock :: calls)
    ((after.client client).call .readTelemetry).2 =
      if s.heartbeatCounter client + callsOf client (before ++ calls) + 1 < 2 ^ 64 then
        .dictionary (publishedFrame
          (((s.image.telemetry (K := K)).seq + 2 * (ticksIn before + 1)) % 2 ^ 64) systemClock
          (tick obstacles reached.daemon (reached.input tickStart))).seen
      else .raised := by
  intro reached after
  have account := s.run_telemetrySeq obstacles before
  have seq : (s.view.run obstacles before).telemetry.seq =
      ((s.image.telemetry (K := K)).seq + 2 * ticksIn before) % 2 ^ 64 := by
    rw [← s.view_run]
    exact account
  have slot : after.view.telemetry = publishedFrame
      (((s.image.telemetry (K := K)).seq + 2 * (ticksIn before + 1)) % 2 ^ 64) systemClock
      (tick obstacles reached.daemon (reached.input tickStart)) := by
    have published : after.view = ((s.view.run obstacles before).step obstacles
        (.tick tickStart systemClock)).run obstacles calls := by
      rw [s.view_run]
      exact List.foldl_append
    rw [published, FieldSystem.run_quiet obstacles _ quiet]
    simp only [FieldSystem.step]
    rw [seq, Nat.mod_add_mod, Nat.add_assoc, Nat.mul_add_one]
  have counter : after.heartbeatCounter client =
      s.heartbeatCounter client + callsOf client (before ++ calls) := by
    have counted := s.run_heartbeatCounter obstacles (before ++ .tick tickStart systemClock :: calls)
      client
    rw [callsOf, List.countP_append, List.countP_cons_of_neg (by simp [SystemEvent.isCallOf]),
      ← List.countP_append] at counted
    exact counted
  rw [((after.client client).call_refines .readTelemetry).2.2, ← counter, ← slot]
  exact ClientCall.answer_readTelemetry _ _

end Runs

section Start

/-- The segment as the daemon constructs it: the magic number and the command's default margin
and stiffness, 0.08 and 15 as floats. -/
def initialImage : ShmImage where
  bytes := toBytes 4 0x4E455552 ++ List.replicate 316 0 ++ toBytes 4 0x3DA3D70A ++
    toBytes 4 0x41700000 ++ List.replicate 56 0
  size := by
    simp only [List.length_append, length_toBytes, List.length_replicate]
    rfl

def ByteSystem.start {ι K : Type} [Field K] (now : Int) : ByteSystem ι K :=
  ⟨initialImage, fun _ => 0, daemonStart now⟩

theorem initialImage_floats : ∀ i : Fin DOF,
    load 32 initialImage.bytes (telemetryMember 2 + i * floatType.size) = 0#32 ∧
      load 32 initialImage.bytes (telemetryMember 3 + i * floatType.size) = 0#32 ∧
      load 32 initialImage.bytes (telemetryMember 4 + i * floatType.size) = 0#32 ∧
      load 32 initialImage.bytes (commandMember 1 + i * floatType.size) = 0#32 ∧
      load 32 initialImage.bytes (commandMember 2 + i * floatType.size) = 0#32 := by
  decide +kernel

/-- The word of `0.08f`. -/
theorem decode_default {K : Type} [Field K] [LinearOrder K] [IsStrictOrderedRing K] :
    (Binary32.decode 0x3DA3D70A#32 : Ieee K) = defaultMargin := by
  have value : (Binary32.magnitude 0x3DA3D70A : K) =
      ((10737418 : Nat) : K) / ((134217728 : Nat) : K) :=
    Binary32.magnitude_normal (e := 27) (by norm_num) (by norm_num) (by norm_num)
  exact (Binary32.decode_positive (by decide)).trans (congrArg Ieee.fin value)

/-- What C++ has of it: zeros, and the defaults of the command. -/
theorem ByteSystem.start_view {ι K : Type} [Field K] [LinearOrder K] [FloorRing K]
    [IsStrictOrderedRing K] (now : Int) :
    (ByteSystem.start now : ByteSystem ι K).view = ⟨System.start now, initialTelemetry⟩ := by
  have words : load 32 initialImage.bytes (commandMember 4) = 0x41700000#32 ∧
      load 32 initialImage.bytes (commandMember 3) = 0x3DA3D70A#32 ∧
      load 32 initialImage.bytes (telemetryMember 5) = 0#32 := by
    decide +kernel
  have counters : initialImage.heartbeatPython = 0 ∧
      (load 64 initialImage.bytes (commandMember 0)).toNat = 0 ∧
      (load 32 initialImage.bytes (commandMember 5)).toNat = 0 ∧
      (load 64 initialImage.bytes (telemetryMember 0)).toNat = 0 ∧
      (load 64 initialImage.bytes (telemetryMember 1)).toNat = 0 ∧
      (load 32 initialImage.bytes (telemetryMember 6)).toNat = 0 ∧
      (load 32 initialImage.bytes (telemetryMember 7)).toNat = 0 ∧
      (load 32 initialImage.bytes (telemetryMember 8)).toNat = 0 := by
    decide +kernel
  have stiffness : (Binary32.decode 0x41700000#32 : Ieee K) = .fin 15 := by
    have value : (Binary32.magnitude 0x41700000 : K) = 15 := by
      rw [Binary32.magnitude_normal (m := 15728640) (e := 20) (by norm_num) (by norm_num)
        (by norm_num)]
      norm_num
    exact (Binary32.decode_positive (by decide)).trans (congrArg Ieee.fin value)
  obtain ⟨gamma, margin, barrier⟩ := words
  obtain ⟨heartbeat, commandSeq, flags, seq, timestamp, intervention, code, tripped⟩ := counters
  simp only [ByteSystem.start, ByteSystem.view, ShmImage.command, ShmImage.telemetry, loadFloat,
    heartbeat, commandSeq, flags, seq, timestamp, intervention, code, tripped, gamma, margin,
    barrier, initialImage_floats, stiffness, decode_default, Binary32.decode_zero]
  rfl

/-- A first dispatch and the tick that takes it. -/
noncomputable def startedEvents : List (SystemEvent Unit ℝ) :=
  [.call () 0 (.dispatchVlaTorque (List.replicate DOF (.fin 1)) (.fin 0.08) (.fin 15)), .tick 0 0]

theorem byte_runs_refine_started :
    ((ByteSystem.start 0).run daemonObstacles startedEvents).view =
        (ByteSystem.start 0).view.run daemonObstacles startedEvents ∧
      (ByteSystem.start 0).answers daemonObstacles startedEvents =
        (ByteSystem.start 0).view.answers daemonObstacles startedEvents ∧
      ((ByteSystem.start 0).view.run daemonObstacles startedEvents).system =
        (ByteSystem.start 0).view.system.run Binary32.round daemonObstacles
          (startedEvents.map SystemEvent.event) :=
  byte_runs_refine daemonObstacles (ByteSystem.start 0) startedEvents

theorem segment_account_started :
    let s := (ByteSystem.start 0 : ByteSystem Unit ℝ)
    let after := s.run daemonObstacles startedEvents
    (∀ client, after.heartbeatCounter client =
        s.heartbeatCounter client + callsOf client startedEvents) ∧
      after.image.heartbeatCpp = (s.image.heartbeatCpp + ticksIn startedEvents) % 2 ^ 64 ∧
      (after.image.telemetry (K := ℝ)).seq =
        ((s.image.telemetry (K := ℝ)).seq + 2 * ticksIn startedEvents) % 2 ^ 64 ∧
      ∀ i, Unused i → after.image.bytes[i]? = s.image.bytes[i]? :=
  segment_account daemonObstacles (ByteSystem.start 0) startedEvents

theorem reads_latest_tick_started :
    let s := (ByteSystem.start 0 : ByteSystem Unit ℝ)
    let reached := (s.view.run daemonObstacles startedEvents).system
    let after := s.run daemonObstacles
      (startedEvents ++ .tick 2000000 7 :: [.call () 0 .sendHeartbeat])
    ((after.client ()).call .readTelemetry).2 = .dictionary (publishedFrame 4 7
      (tick daemonObstacles reached.daemon (reached.input 2000000))).seen := by
  intro s reached after
  have quiet : ∀ event ∈ ([.call () 0 .sendHeartbeat] : List (SystemEvent Unit ℝ)),
      event.isTick = false := by
    simp [SystemEvent.isTick]
  have read := reads_latest_tick daemonObstacles s startedEvents 2000000 7 quiet ()
  have seq : (s.image.telemetry (K := ℝ)).seq = 0 := by
    decide +kernel
  have ticks : ticksIn startedEvents = 1 := rfl
  have calls : callsOf () (startedEvents ++ [.call () 0 .sendHeartbeat]) = 2 := rfl
  rw [seq, ticks, calls] at read
  exact read

end Start

section Started

variable {ι K : Type} [DecidableEq ι] [Field K] [LinearOrder K] [FloorRing K]
  [IsStrictOrderedRing K] [SquareRoot K] [ExactSolver K] (obstacles : List (Obstacle K))

/-- Over the bytes of a fresh segment the system runs as over the fields at their defaults. -/
theorem started_bytes_refine (now : Int) (events : List (SystemEvent ι K)) :
    let bytes : ByteSystem ι K := ByteSystem.start now
    let fields : FieldSystem ι K := ⟨System.start now, initialTelemetry⟩
    (bytes.run obstacles events).view = fields.run obstacles events ∧
      bytes.answers obstacles events = fields.answers obstacles events ∧
      (bytes.run obstacles events).daemon =
        ((System.start now).run Binary32.round obstacles (events.map SystemEvent.event)).daemon := by
  intro bytes fields
  have start : bytes.view = fields := ByteSystem.start_view now
  have view : (bytes.run obstacles events).view = fields.run obstacles events := by
    rw [← start]
    exact bytes.view_run obstacles events
  refine ⟨view, ?_, ?_⟩
  · rw [← start]
    exact bytes.answers_eq obstacles events
  · have daemon := congrArg (fun after => after.system.daemon) view
    rwa [FieldSystem.run_system] at daemon

theorem started_bytes_refine_dispatch :
    let bytes : ByteSystem Unit ℝ := ByteSystem.start 0
    let fields : FieldSystem Unit ℝ := ⟨System.start 0, initialTelemetry⟩
    (bytes.run daemonObstacles startedEvents).view = fields.run daemonObstacles startedEvents ∧
      bytes.answers daemonObstacles startedEvents =
        fields.answers daemonObstacles startedEvents ∧
      (bytes.run daemonObstacles startedEvents).daemon =
        ((System.start 0).run Binary32.round daemonObstacles
          (startedEvents.map SystemEvent.event)).daemon :=
  started_bytes_refine daemonObstacles 0 startedEvents

end Started

end NeuroKinetic
