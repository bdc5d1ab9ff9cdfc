import NeuroKinetic.CommandIngest

namespace NeuroKinetic

structure SharedMemory (K : Type) where
  heartbeatPython : Nat
  command : CommandSlot K

def initialCommand {K : Type} [Field K] : CommandSlot K :=
  ⟨0, zeroTorque, zeroTorque, defaultMargin, .fin 15, 0⟩

/-- A client: its private heartbeat counter and the segment it maps. -/
structure NeuroKineticClient (K : Type) where
  heartbeatCounter : Nat
  buf : SharedMemory K

inductive PyError where
  | structError
  | overflowError
  deriving DecidableEq, Repr

section Calls

variable {K : Type}

/-- The counter is advanced even when packing it fails. -/
def sendHeartbeat (c : NeuroKineticClient K) : NeuroKineticClient K × Except PyError Unit :=
  let counter := c.heartbeatCounter + 1
  if counter < 2 ^ 64 then (⟨counter, { c.buf with heartbeatPython := counter }⟩, .ok ())
  else (⟨counter, c.buf⟩, .error .structError)

def finalSeq (currSeq : Nat) : Nat := if currSeq % 2 = 0 then currSeq + 2 else currSeq + 1

variable [Field K]

/-- `struct.pack` of a command; `packFloat` is its conversion of one number to a
32-bit float, which overflows on `none`. -/
def packCommand (packFloat : Ieee K → Option (Ieee K)) (seq : Nat) (torques : List (Ieee K))
    (safetyMargin gamma : Ieee K) : Except PyError (CommandSlot K) :=
  if torques.length ≠ DOF ∨ 2 ^ 64 ≤ seq then .error .structError
  else
    match torques.mapM packFloat, packFloat safetyMargin, packFloat gamma with
    | some nominal, some margin, some gamma =>
      .ok ⟨seq, fun i => nominal.getD i (.fin 0), fun _ => .fin 0, margin, gamma, 1⟩
    | _, _, _ => .error .overflowError

def dispatchVlaTorque (packFloat : Ieee K → Option (Ieee K)) (torques : List (Ieee K))
    (safetyMargin gamma : Ieee K) (c : NeuroKineticClient K) :
    NeuroKineticClient K × Except PyError Unit :=
  match sendHeartbeat c with
  | (c, .error e) => (c, .error e)
  | (c, .ok ()) =>
    match packCommand packFloat (finalSeq c.buf.command.seq) torques safetyMargin gamma with
    | .error e => (c, .error e)
    | .ok payload => (⟨c.heartbeatCounter, { c.buf with command := payload }⟩, .ok ())

/-- What a client may call. A telemetry read writes the heartbeat and nothing else. -/
inductive ClientCall (K : Type) where
  | sendHeartbeat
  | readTelemetry
  | dispatchVlaTorque (torques : List (Ieee K)) (safetyMargin gamma : Ieee K)

def ClientCall.run (packFloat : Ieee K → Option (Ieee K)) :
    ClientCall K → NeuroKineticClient K → NeuroKineticClient K
  | .sendHeartbeat, c => (NeuroKinetic.sendHeartbeat c).1
  | .readTelemetry, c => (NeuroKinetic.sendHeartbeat c).1
  | .dispatchVlaTorque torques safetyMargin gamma, c =>
    (NeuroKinetic.dispatchVlaTorque packFloat torques safetyMargin gamma c).1

end Calls

section Effects

variable {K : Type}

theorem finalSeq_even (seq : Nat) : finalSeq seq % 2 = 0 := by
  unfold finalSeq
  split
  next => omega
  next => omega

theorem seq_lt_finalSeq (seq : Nat) : seq < finalSeq seq := by
  unfold finalSeq
  split <;> omega

theorem sendHeartbeat_cases (c : NeuroKineticClient K) :
    ((sendHeartbeat c).1.buf = c.buf ∧ ∃ e, (sendHeartbeat c).2 = .error e) ∨
      ((sendHeartbeat c).1.buf = { c.buf with heartbeatPython := c.heartbeatCounter + 1 } ∧
        (sendHeartbeat c).2 = .ok ()) := by
  by_cases room : c.heartbeatCounter + 1 < 2 ^ 64
  · exact Or.inr (by simp only [sendHeartbeat, if_pos room, and_self])
  · exact Or.inl (by simp only [sendHeartbeat, if_neg room, true_and]; exact ⟨_, rfl⟩)

inductive CallEffect (before : NeuroKineticClient K) : SharedMemory K → Prop
  | unchanged : CallEffect before before.buf
  | heartbeat : CallEffect before { before.buf with heartbeatPython := before.heartbeatCounter + 1 }
  | dispatch (payload : CommandSlot K) (seq : payload.seq = finalSeq before.buf.command.seq)
      (flags : payload.commandFlags = 1) :
      CallEffect before ⟨before.heartbeatCounter + 1, payload⟩

/-- What clients can leave in the segment: an even sequence, no E-stop bit, and
a heartbeat as soon as there is a command. -/
structure ClientWritten (shm : SharedMemory K) : Prop where
  even : shm.command.seq % 2 = 0
  noStop : shm.command.commandFlags &&& 2 = 0
  connected : shm.command.seq ≠ 0 → shm.heartbeatPython ≠ 0

theorem ClientWritten.call {c : NeuroKineticClient K} {after : SharedMemory K}
    (h : ClientWritten c.buf) (effect : CallEffect c after) : ClientWritten after := by
  cases effect with
  | unchanged => exact h
  | heartbeat => exact ⟨h.even, h.noStop, fun _ => Nat.succ_ne_zero _⟩
  | dispatch payload seq flags =>
    refine ⟨?_, ?_, fun _ => Nat.succ_ne_zero _⟩
    · rw [seq]
      exact finalSeq_even _
    · rw [flags]
      rfl

variable [Field K]

theorem packCommand_ok {packFloat : Ieee K → Option (Ieee K)} {seq : Nat}
    {torques : List (Ieee K)} {safetyMargin gamma : Ieee K} {payload : CommandSlot K}
    (h : packCommand packFloat seq torques safetyMargin gamma = .ok payload) :
    payload.seq = seq ∧ payload.commandFlags = 1 := by
  unfold packCommand at h
  split at h
  next => cases h
  next =>
    split at h
    next =>
      cases Except.ok.inj h
      exact ⟨rfl, rfl⟩
    next => cases h

theorem packCommand_eq {packFloat : Ieee K → Option (Ieee K)} {seq : Nat}
    {torques nominal : List (Ieee K)} {safetyMargin gamma margin gamma' : Ieee K}
    (length : torques.length = DOF) (room : seq < 2 ^ 64)
    (torquesPacked : torques.mapM packFloat = some nominal)
    (marginPacked : packFloat safetyMargin = some margin) (gammaPacked : packFloat gamma = some gamma') :
    packCommand packFloat seq torques safetyMargin gamma =
      .ok ⟨seq, fun i => nominal.getD i (.fin 0), fun _ => .fin 0, margin, gamma', 1⟩ := by
  have accepted : ¬(torques.length ≠ DOF ∨ 2 ^ 64 ≤ seq) := by omega
  simp only [packCommand, if_neg accepted, torquesPacked, marginPacked, gammaPacked]

theorem packCommand_margin {packFloat : Ieee K → Option (Ieee K)} {seq : Nat}
    {torques : List (Ieee K)} {safetyMargin gamma : Ieee K} {payload : CommandSlot K}
    (h : packCommand packFloat seq torques safetyMargin gamma = .ok payload) :
    packFloat safetyMargin = some payload.obstacleSafetyMargin := by
  unfold packCommand at h
  split at h
  next => cases h
  next =>
    split at h
    next margin _ =>
      cases Except.ok.inj h
      exact margin
    next => cases h

theorem dispatchVlaTorque_ok {packFloat : Ieee K → Option (Ieee K)} {torques : List (Ieee K)}
    {safetyMargin gamma : Ieee K} {c : NeuroKineticClient K} {payload : CommandSlot K}
    (room : c.heartbeatCounter + 1 < 2 ^ 64)
    (packed : packCommand packFloat (finalSeq c.buf.command.seq) torques safetyMargin gamma =
      .ok payload) :
    dispatchVlaTorque packFloat torques safetyMargin gamma c =
      (⟨c.heartbeatCounter + 1, ⟨c.heartbeatCounter + 1, payload⟩⟩, .ok ()) := by
  simp only [dispatchVlaTorque, sendHeartbeat, if_pos room, packed]

/-- A dispatch stores its packed command whole, or raises and leaves the slot alone. -/
theorem dispatchVlaTorque_cases (packFloat : Ieee K → Option (Ieee K)) (torques : List (Ieee K))
    (safetyMargin gamma : Ieee K) (c : NeuroKineticClient K) :
    ((dispatchVlaTorque packFloat torques safetyMargin gamma c).2 = .ok () ∧
        packCommand packFloat (finalSeq c.buf.command.seq) torques safetyMargin gamma =
          .ok (dispatchVlaTorque packFloat torques safetyMargin gamma c).1.buf.command) ∨
      ∃ e, (dispatchVlaTorque packFloat torques safetyMargin gamma c).2 = .error e ∧
        (dispatchVlaTorque packFloat torques safetyMargin gamma c).1.buf.command =
          c.buf.command := by
  by_cases room : c.heartbeatCounter + 1 < 2 ^ 64
  · cases packed : packCommand packFloat (finalSeq c.buf.command.seq) torques safetyMargin gamma with
    | error e =>
      right
      exact ⟨e, by simp only [dispatchVlaTorque, sendHeartbeat, if_pos room, packed, and_self]⟩
    | ok payload =>
      left
      simp only [dispatchVlaTorque_ok room packed, and_self]
  · right
    exact ⟨.structError, by simp only [dispatchVlaTorque, sendHeartbeat, if_neg room, and_self]⟩

theorem ClientCall.run_effect (packFloat : Ieee K → Option (Ieee K)) (call : ClientCall K)
    (c : NeuroKineticClient K) : CallEffect c (call.run packFloat c).buf := by
  have beat : CallEffect c (NeuroKinetic.sendHeartbeat c).1.buf := by
    rcases sendHeartbeat_cases c with ⟨same, _⟩ | ⟨stored, _⟩
    · rw [same]
      exact .unchanged
    · rw [stored]
      exact .heartbeat
  cases call with
  | sendHeartbeat => exact beat
  | readTelemetry => exact beat
  | dispatchVlaTorque torques safetyMargin gamma =>
    simp only [ClientCall.run, NeuroKinetic.dispatchVlaTorque]
    rcases sendHeartbeat_cases c with ⟨_, e, failed⟩ | ⟨stored, sent⟩
    · rw [← Prod.mk.eta (p := NeuroKinetic.sendHeartbeat c), failed]
      exact beat
    · rw [← Prod.mk.eta (p := NeuroKinetic.sendHeartbeat c), sent]
      simp only
      split
      next => exact beat
      next payload packed =>
        obtain ⟨seq, flags⟩ := packCommand_ok packed
        rw [stored] at seq ⊢
        exact .dispatch payload seq flags

end Effects

end NeuroKinetic
