import NeuroKinetic.ShmDispatch
import NeuroKinetic.SystemRuns
import NeuroKinetic.TelemetryImage

open LittleEndian CLayout PyStruct RidgeProjection

namespace NeuroKinetic

/-- What a call tells its caller. -/
inductive Answer (K : Type) where
  | raised
  | returned
  | dictionary (reading : TelemetryReading K)

def answered {ε α K : Type} (done : α → Answer K) : Except ε α → Answer K
  | .ok a => done a
  | .error _ => .raised

/-- Calls and ticks that do not overlap, with the clocks that a tick reads. -/
inductive SystemEvent (ι K : Type) where
  | call (client : ι) (time : Int) (call : ClientCall K)
  | tick (tickStart systemClock : Int)

def SystemEvent.event {ι K : Type} : SystemEvent ι K → Event ι K
  | .call client time request => .call client time request
  | .tick tickStart _ => .tick tickStart

def SystemEvent.isTick {ι K : Type} : SystemEvent ι K → Bool
  | .call .. => false
  | .tick .. => true

/-- The system over fields, with the telemetry slot that its clients read. -/
structure FieldSystem (ι K : Type) where
  system : System ι K
  telemetry : TelemetrySlot K

/-- The system over the bytes of the segment. -/
structure ByteSystem (ι K : Type) where
  image : ShmImage
  heartbeatCounter : ι → Nat
  daemon : DaemonState K

section Fields

variable {ι K : Type} [Field K] [LinearOrder K] [FloorRing K]

def FieldSystem.client (s : FieldSystem ι K) (client : ι) : NeuroKineticClient K :=
  ⟨s.system.heartbeatCounter client, s.system.shm⟩

/-- What a reader makes of a slot that nobody is writing. -/
def TelemetrySlot.seen (slot : TelemetrySlot K) : TelemetryReading K :=
  if ReadSafe slot.seq then slot.reading else emptyReading

def ClientCall.answer (c : NeuroKineticClient K) (telemetry : TelemetrySlot K) :
    ClientCall K → Answer K
  | .sendHeartbeat => answered (fun _ => .returned) (NeuroKinetic.sendHeartbeat c).2
  | .readTelemetry =>
    answered (fun _ => .dictionary telemetry.seen) (NeuroKinetic.sendHeartbeat c).2
  | .dispatchVlaTorque torques safetyMargin gamma =>
    answered (fun _ => .returned)
      (NeuroKinetic.dispatchVlaTorque Binary32.round torques safetyMargin gamma c).2

variable [DecidableEq ι] [SquareRoot K] [ExactSolver K] (obstacles : List (Obstacle K))

def FieldSystem.step (s : FieldSystem ι K) (event : SystemEvent ι K) : FieldSystem ι K where
  system := s.system.step Binary32.round obstacles event.event
  telemetry :=
    match event with
    | .call .. => s.telemetry
    | .tick tickStart systemClock =>
      publishedFrame ((s.telemetry.seq + 2) % 2 ^ 64) systemClock
        (tick obstacles s.system.daemon (s.system.input tickStart))

def FieldSystem.run (s : FieldSystem ι K) (events : List (SystemEvent ι K)) : FieldSystem ι K :=
  events.foldl (fun s event => s.step obstacles event) s

/-- What an event tells a client. -/
def FieldSystem.told (s : FieldSystem ι K) : SystemEvent ι K → List (Answer K)
  | .call client _ call => [call.answer (s.client client) s.telemetry]
  | .tick .. => []

/-- The answers of a run's calls, in order. -/
def FieldSystem.answers (s : FieldSystem ι K) : List (SystemEvent ι K) → List (Answer K)
  | [] => []
  | event :: rest => s.told event ++ FieldSystem.answers (s.step obstacles event) rest

end Fields

section Bytes

variable {ι K : Type} [Field K] [LinearOrder K] [FloorRing K]

def heartbeatCppOffset : Nat := offsetOf segmentMembers 1

/-- `heartbeat_cpp.fetch_add(1)`. -/
def ShmImage.beatCpp (m : ShmImage) : ShmImage :=
  let beat : BitVec 64 := load 64 m.bytes heartbeatCppOffset
  ⟨splice m.bytes heartbeatCppOffset (word (beat + 1)), by
    rw [length_splice (by rw [m.size, length_word]; decide), m.size]⟩

def ByteClient.call : ClientCall K → ByteClient → ByteClient × Answer K
  | .sendHeartbeat, c => (c.sendHeartbeat.1, answered (fun _ => .returned) c.sendHeartbeat.2)
  | .readTelemetry, c =>
    ((c.readTelemetry (K := K)).1, answered .dictionary c.readTelemetry.2)
  | .dispatchVlaTorque torques safetyMargin gamma, c =>
    let after := c.dispatchVlaTorque torques safetyMargin gamma
    (after.1, answered (fun _ => .returned) after.2)

def ByteSystem.client (s : ByteSystem ι K) (client : ι) : ByteClient :=
  ⟨s.heartbeatCounter client, s.image⟩

variable [DecidableEq ι] [SquareRoot K] [ExactSolver K] (obstacles : List (Obstacle K))

def ByteSystem.step (s : ByteSystem ι K) : SystemEvent ι K → ByteSystem ι K
  | .call client _ call =>
    let after := ((s.client client).call call).1
    { s with
      image := after.buf
      heartbeatCounter := Function.update s.heartbeatCounter client after.heartbeatCounter }
  | .tick tickStart systemClock =>
    let image := s.image.beatCpp
    let after := tick obstacles s.daemon ⟨tickStart, image.heartbeatPython, image.command.read⟩
    { s with image := image.publish systemClock after, daemon := after.1 }

def ByteSystem.run (s : ByteSystem ι K) (events : List (SystemEvent ι K)) : ByteSystem ι K :=
  events.foldl (fun s event => s.step obstacles event) s

def ByteSystem.told (s : ByteSystem ι K) : SystemEvent ι K → List (Answer K)
  | .call client _ call => [((s.client client).call call).2]
  | .tick .. => []

def ByteSystem.answers (s : ByteSystem ι K) : List (SystemEvent ι K) → List (Answer K)
  | [] => []
  | event :: rest => s.told event ++ ByteSystem.answers (s.step obstacles event) rest

/-- The fields that C++ has in the bytes. -/
def ByteSystem.view (s : ByteSystem ι K) : FieldSystem ι K :=
  ⟨⟨⟨s.image.heartbeatPython, s.image.command⟩, s.heartbeatCounter, s.daemon⟩, s.image.telemetry⟩

end Bytes

section Calls

variable {K : Type} [Field K]

theorem dispatchVlaTorque_refused {packFloat : Ieee K → Option (Ieee K)} {torques : List (Ieee K)}
    {safetyMargin gamma : Ieee K} {c : NeuroKineticClient K} {e : PyError}
    (room : c.heartbeatCounter + 1 < 2 ^ 64)
    (refused : packCommand packFloat (finalSeq c.buf.command.seq) torques safetyMargin gamma =
      .error e) :
    dispatchVlaTorque packFloat torques safetyMargin gamma c =
      (⟨c.heartbeatCounter + 1, ⟨c.heartbeatCounter + 1, c.buf.command⟩⟩, .error e) := by
  simp only [dispatchVlaTorque, sendHeartbeat, if_pos room, refused]

theorem dispatchVlaTorque_full {packFloat : Ieee K → Option (Ieee K)} {torques : List (Ieee K)}
    {safetyMargin gamma : Ieee K} {c : NeuroKineticClient K}
    (full : ¬c.heartbeatCounter + 1 < 2 ^ 64) :
    dispatchVlaTorque packFloat torques safetyMargin gamma c =
      (⟨c.heartbeatCounter + 1, c.buf⟩, .error .structError) := by
  simp only [dispatchVlaTorque, sendHeartbeat, if_neg full]

theorem heartbeat_stored {m : ShmImage} {counter : Nat} {buf : ShmImage} (room : counter < 2 ^ 64)
    (bytes : buf.bytes = splice m.bytes heartbeatPyOffset (toBytes 8 counter)) :
    buf.heartbeatPython = counter := by
  have start : offsetOf segmentMembers 2 = heartbeatPyOffset + 0 := by
    decide
  have whole : slice (toBytes 8 counter) 0 8 = toBytes 8 counter := by
    rw [slice, List.drop_zero, List.take_of_length_le (by rw [length_toBytes])]
  rw [ShmImage.heartbeatPython, start, bytes,
    load_splice (by rw [m.size]; decide) (by rw [length_toBytes]), load, whole,
    ofBytes_toBytes (by exact room), BitVec.toNat_ofNat, Nat.mod_eq_of_lt room]

theorem heartbeat_telemetry {m : ShmImage} {counter : Nat} {buf : ShmImage}
    (bytes : buf.bytes = splice m.bytes heartbeatPyOffset (toBytes 8 counter)) :
    (buf.telemetry : TelemetrySlot K) = m.telemetry := by
  refine telemetry_congr fun i after => ?_
  rw [bytes]
  exact heartbeat_outside m counter (Or.inr (le_trans (by decide) after))

/-- A heartbeat over bytes is the heartbeat over fields. -/
theorem ByteClient.sendHeartbeat_refines (c : ByteClient) :
    c.sendHeartbeat.1.view = (NeuroKinetic.sendHeartbeat (c.view : NeuroKineticClient K)).1 ∧
      (c.sendHeartbeat.1.buf.telemetry : TelemetrySlot K) = c.buf.telemetry ∧
      (c.sendHeartbeat.2 = .ok () ↔
        (NeuroKinetic.sendHeartbeat (c.view : NeuroKineticClient K)).2 = .ok ()) := by
  rcases c.sendHeartbeat_cases with ⟨room, buf, sent, bytes⟩ | ⟨full, raised⟩
  · have beat : NeuroKinetic.sendHeartbeat (c.view : NeuroKineticClient K) =
        (⟨c.heartbeatCounter + 1, ⟨c.heartbeatCounter + 1, c.buf.command⟩⟩, .ok ()) := if_pos room
    rw [sent, beat, ByteClient.view, heartbeat_stored room bytes, heartbeat_command bytes]
    exact ⟨rfl, heartbeat_telemetry bytes, by simp⟩
  · have kept : NeuroKinetic.sendHeartbeat (c.view : NeuroKineticClient K) =
        (⟨c.heartbeatCounter + 1, ⟨c.buf.heartbeatPython, c.buf.command⟩⟩, .error .structError) :=
      if_neg full
    rw [raised, kept]
    exact ⟨rfl, rfl, by simp⟩

variable [LinearOrder K] [FloorRing K] [IsStrictOrderedRing K]

/-- A dispatch over bytes is the dispatch over fields, in everything that it leaves. -/
theorem ByteClient.dispatch_view (torques : List (Ieee K)) (safetyMargin gamma : Ieee K)
    (c : ByteClient) :
    (c.dispatchVlaTorque torques safetyMargin gamma).1.view =
        (NeuroKinetic.dispatchVlaTorque Binary32.round torques safetyMargin gamma c.view).1 ∧
      ((c.dispatchVlaTorque torques safetyMargin gamma).1.buf.telemetry : TelemetrySlot K) =
        c.buf.telemetry := by
  rcases c.sendHeartbeat_cases with ⟨room, before, sent, bytes⟩ | ⟨full, raised⟩
  · obtain ⟨unpacked, loaded, currSeq⟩ := unpack_currSeq (K := K) before
    have stored := heartbeat_stored room bytes
    have command : (before.command : CommandSlot K) = c.buf.command := heartbeat_command bytes
    have telemetry : (before.telemetry : TelemetrySlot K) = c.buf.telemetry :=
      heartbeat_telemetry bytes
    rw [command] at currSeq
    simp only [ByteClient.dispatchVlaTorque, sent, loaded, currSeq]
    cases packed : pack cmdFormat (commandValues (finalSeq (c.buf.command (K := K)).seq) torques
        safetyMargin gamma) with
    | error e =>
      cases refused : packCommand Binary32.round (finalSeq (c.buf.command (K := K)).seq) torques
          safetyMargin gamma with
      | ok slot =>
        obtain ⟨payload, accepted⟩ := pack_isOk (packable_of_packCommand refused)
        rw [packed] at accepted
        cases accepted
      | error e' =>
        rw [dispatchVlaTorque_refused (c := c.view) room refused, ByteClient.view, stored, command]
        exact ⟨rfl, telemetry⟩
    | ok payload =>
      have total : payload.length = calcsize cmdCodes := length_packItems (pack_items packed).2
      have fits : cmdOffset + payload.length ≤ shmTotalSize := by
        rw [total]
        decide
      obtain ⟨buf, assigned, spliced⟩ := assign_eq before payload rfl fits
      have below : ∀ i, i < cmdOffset → buf.bytes[i]? = before.bytes[i]? := by
        intro i low
        rw [spliced]
        exact getElem?_splice (by rw [before.size]; decide) (Or.inl low)
      have beat : buf.heartbeatPython = c.heartbeatCounter + 1 := by
        rw [← stored, ShmImage.heartbeatPython, ShmImage.heartbeatPython]
        exact congrArg BitVec.toNat (load_congr fun i _ stop => below i (stop.trans (by decide)))
      simp only [assigned]
      rw [dispatchVlaTorque_ok (c := c.view) room (sent_command packed spliced), ByteClient.view,
        beat]
      exact ⟨rfl, (ShmImage.telemetry_slot fun i _ low =>
        below i (low.trans (by decide))).trans telemetry⟩
  · simp only [ByteClient.dispatchVlaTorque, raised]
    rw [dispatchVlaTorque_full (c := c.view) full]
    exact ⟨rfl, trivial⟩

omit [Field K] [LinearOrder K] [FloorRing K] [IsStrictOrderedRing K] in
theorem answered_congr {ε ε' α : Type} {x : Except ε α} {y : Except ε' α} (done : α → Answer K)
    (same : ∀ a, x = .ok a ↔ y = .ok a) : answered done x = answered done y := by
  cases x with
  | ok a => rw [(same a).mp rfl, answered, answered]
  | error e =>
    cases y with
    | ok b => exact absurd ((same b).mpr rfl) (by simp)
    | error e' => rfl

omit [Field K] [LinearOrder K] [FloorRing K] [IsStrictOrderedRing K] in
theorem answered_map {ε α β : Type} (done : β → Answer K) (f : α → β) (x : Except ε α) :
    answered done (x.map f) = answered (fun a => done (f a)) x := by
  cases x <;> rfl

omit [LinearOrder K] [FloorRing K] [IsStrictOrderedRing K] in
theorem ByteClient.readTelemetry_eq (c : ByteClient) : c.readTelemetry (K := K) =
    (c.sendHeartbeat.1, c.sendHeartbeat.2.map fun _ => c.buf.telemetry.seen) := by
  rcases c.sendHeartbeat_cases with ⟨_, buf, sent, bytes⟩ | ⟨_, raised⟩
  · rw [ByteClient.readTelemetry, sent]
    simp only [readAttempts_eq, heartbeat_telemetry bytes, TelemetrySlot.seen, Except.map]
  · rw [ByteClient.readTelemetry, raised]
    rfl

/-- Each call over bytes is the call over fields, in what it leaves and what it answers. -/
theorem ByteClient.call_refines (call : ClientCall K) (c : ByteClient) :
    (c.call call).1.view = call.run Binary32.round c.view ∧
      ((c.call call).1.buf.telemetry : TelemetrySlot K) = c.buf.telemetry ∧
      (c.call call).2 = call.answer c.view c.buf.telemetry := by
  obtain ⟨view, telemetry, sent⟩ := c.sendHeartbeat_refines (K := K)
  cases call with
  | sendHeartbeat => exact ⟨view, telemetry, answered_congr _ fun _ => sent⟩
  | dispatchVlaTorque torques safetyMargin gamma =>
    obtain ⟨view, telemetry⟩ := c.dispatch_view torques safetyMargin gamma
    exact ⟨view, telemetry, answered_congr _ fun _ => c.dispatch_refines.1⟩
  | readTelemetry =>
    simp only [ByteClient.call, c.readTelemetry_eq, answered_map]
    exact ⟨view, telemetry, answered_congr _ fun _ => sent⟩

end Calls

section Ticks

variable {K : Type} [Field K]

theorem ShmImage.beatCpp_outside (m : ShmImage) {i : Nat} (outside : i < 8 ∨ 16 ≤ i) :
    m.beatCpp.bytes[i]? = m.bytes[i]? :=
  getElem?_splice (by rw [m.size]; decide) (by rw [length_word]; exact outside)

end Ticks

section Runs

variable {ι K : Type} [DecidableEq ι] [Field K] [LinearOrder K] [FloorRing K]
  [IsStrictOrderedRing K] [SquareRoot K] [ExactSolver K] (obstacles : List (Obstacle K))

theorem ByteSystem.view_step (s : ByteSystem ι K) (event : SystemEvent ι K) :
    (s.step obstacles event).view = s.view.step obstacles event := by
  cases event with
  | call client time call =>
    obtain ⟨view, telemetry, _⟩ := (s.client client).call_refines call
    have run : call.run Binary32.round ⟨s.view.system.heartbeatCounter client, s.view.system.shm⟩ =
      ((s.client client).call call).1.view := view.symm
    refine (FieldSystem.mk.injEq ..).mpr ⟨?_, telemetry⟩
    simp only [SystemEvent.event, System.step, run]
    rfl
  | tick tickStart systemClock =>
    have beat : s.image.beatCpp.heartbeatPython = s.image.heartbeatPython :=
      congrArg BitVec.toNat (load_congr fun i start _ =>
        s.image.beatCpp_outside (Or.inr (le_trans (by decide) start)))
    have command : (s.image.beatCpp.command : CommandSlot K) = s.image.command :=
      command_congr fun i after => s.image.beatCpp_outside (Or.inr (le_trans (by decide) after))
    have telemetry : (s.image.beatCpp.telemetry : TelemetrySlot K) = s.image.telemetry :=
      telemetry_congr fun i after => s.image.beatCpp_outside (Or.inr (le_trans (by decide) after))
    have input : (⟨tickStart, s.image.beatCpp.heartbeatPython, s.image.beatCpp.command.read⟩ :
        TickInput K) = s.view.system.input tickStart := by
      rw [beat, command]
      rfl
    have low : ∀ image : ShmImage, ∀ after : DaemonState K × TickOutput K,
        (image.publish systemClock after).heartbeatPython = image.heartbeatPython := by
      intro image after
      exact congrArg BitVec.toNat (load_congr fun i _ stop =>
        image.getElem?_publish systemClock after (Or.inl (stop.trans_le (by decide))))
    have high : ∀ image : ShmImage, ∀ after : DaemonState K × TickOutput K,
        ((image.publish systemClock after).command : CommandSlot K) = image.command :=
      fun image after => command_congr fun i above =>
        image.getElem?_publish systemClock after (Or.inr (le_trans (by decide) above))
    simp only [ByteSystem.step, ByteSystem.view, low, high, ShmImage.publish_telemetry, beat,
      command, telemetry]
    rfl

theorem ByteSystem.view_run (s : ByteSystem ι K) (events : List (SystemEvent ι K)) :
    (s.run obstacles events).view = s.view.run obstacles events := by
  induction events generalizing s with
  | nil => rfl
  | cons event rest ih =>
    have step := ih (s.step obstacles event)
    rwa [s.view_step] at step

omit [DecidableEq ι] [SquareRoot K] [ExactSolver K] in
theorem ByteSystem.told_eq (s : ByteSystem ι K) (event : SystemEvent ι K) :
    s.told event = s.view.told event := by
  cases event with
  | tick tickStart systemClock => rfl
  | call client time call =>
    exact congrArg (fun answer => [answer]) ((s.client client).call_refines call).2.2

theorem ByteSystem.answers_eq (s : ByteSystem ι K) (events : List (SystemEvent ι K)) :
    s.answers obstacles events = s.view.answers obstacles events := by
  induction events generalizing s with
  | nil => rfl
  | cons event rest ih =>
    have later := ih (s.step obstacles event)
    rw [s.view_step] at later
    rw [ByteSystem.answers, FieldSystem.answers, later, s.told_eq]

omit [IsStrictOrderedRing K] in
theorem FieldSystem.run_system (s : FieldSystem ι K) (events : List (SystemEvent ι K)) :
    (s.run obstacles events).system =
      s.system.run Binary32.round obstacles (events.map SystemEvent.event) := by
  induction events generalizing s with
  | nil => rfl
  | cons event rest ih => exact ih (s.step obstacles event)

/-- Whatever the segment holds at first, the system over bytes is the system over fields: in the
state that a run reaches and in all that its clients are told on the way. -/
theorem byte_runs_refine (s : ByteSystem ι K) (events : List (SystemEvent ι K)) :
    (s.run obstacles events).view = s.view.run obstacles events ∧
      s.answers obstacles events = s.view.answers obstacles events ∧
      (s.view.run obstacles events).system =
        s.view.system.run Binary32.round obstacles (events.map SystemEvent.event) :=
  ⟨s.view_run obstacles events, s.answers_eq obstacles events, s.view.run_system obstacles events⟩

end Runs

end NeuroKinetic
