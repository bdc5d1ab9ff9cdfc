import NeuroKinetic.Dispatch
import NeuroKinetic.Library.OrderedCopy
import Mathlib.Data.Rat.Defs

open OrderedCopy

namespace NeuroKinetic

/-- Where the command read of a tick stands; with nothing left to load, the second
load of the sequence is next. -/
inductive IngestPc (K : Type) where
  | loadSeq1
  | loadField (cmdSeq1 : Nat) (frame : CommandField → Word K) (pending : List CommandField)

/-- One client, the daemon and the slot between them, with the dispatches whose
sequence has been published and the reads that have been completed. -/
structure CommandLink (K : Type) where
  mem : CommandMemory K
  client : Dispatcher K
  daemon : IngestPc K
  dispatches : List (CommandSlot K)
  reads : List (CommandRead K)

inductive LinkTurn (K : Type) where
  | client (args : DispatchArgs K)
  | daemon

section Step

variable {K : Type} [Field K]

def commandRead (cmdSeq1 : Nat) (frame : CommandField → Word K) (cmdSeq2 : Nat) : CommandRead K :=
  ⟨cmdSeq1, fun i => (frame (.nominalTorque i)).toFloat, (frame .commandFlags).toNat,
    (frame .obstacleSafetyMargin).toFloat, cmdSeq2⟩

def CommandLink.start : CommandLink K where
  mem := ⟨0, initialCommand.word⟩
  client := ⟨0, .idle⟩
  daemon := .loadSeq1
  dispatches := []
  reads := []

def CommandLink.clientStep (packFloat : Ieee K → Option (Ieee K)) (s : CommandLink K)
    (args : DispatchArgs K) : CommandLink K :=
  let after := dispatchStep packFloat args s.mem s.client
  { s with
    mem := after.1
    client := after.2
    dispatches := s.dispatches ++ s.client.pc.publishing }

/-- One load of the daemon's command read; a sequence that is odd or zero ends it. -/
def CommandLink.daemonStep (s : CommandLink K) : CommandLink K :=
  match s.daemon with
  | .loadSeq1 =>
    let cmdSeq1 := (s.mem.slot .seq).toNat
    if cmdSeq1 % 2 = 0 ∧ cmdSeq1 ≠ 0 then
      { s with daemon := .loadField cmdSeq1 initialCommand.word ingestFields }
    else { s with reads := s.reads ++ [commandRead cmdSeq1 initialCommand.word cmdSeq1] }
  | .loadField cmdSeq1 frame (f :: rest) =>
    { s with daemon := .loadField cmdSeq1 (Function.update frame f (s.mem.slot f)) rest }
  | .loadField cmdSeq1 frame [] =>
    { s with
      daemon := .loadSeq1
      reads := s.reads ++ [commandRead cmdSeq1 frame (s.mem.slot .seq).toNat] }

def CommandLink.step (packFloat : Ieee K → Option (Ieee K)) (s : CommandLink K) :
    LinkTurn K → CommandLink K
  | .client args => s.clientStep packFloat args
  | .daemon => s.daemonStep

def CommandLink.run (packFloat : Ieee K → Option (Ieee K)) (s : CommandLink K)
    (turns : List (LinkTurn K)) : CommandLink K :=
  turns.foldl (CommandLink.step packFloat) s

/-- The daemon is about to load a field that the dispatch whose sequence it has
read has yet to store. -/
def CommandLink.LoadsUnstored (s : CommandLink K) : Prop :=
  match s.daemon, s.client.pc with
  | .loadField cmdSeq1 _ (f :: _), .storeField payload pending => payload.seq = cmdSeq1 ∧ f ∈ pending
  | _, _ => False

instance (s : CommandLink K) : Decidable s.LoadsUnstored := by
  unfold CommandLink.LoadsUnstored
  split <;> infer_instance

def CommandLink.LoadsStored (s : CommandLink K) : LinkTurn K → Prop
  | .client _ => True
  | .daemon => ¬s.LoadsUnstored

instance (s : CommandLink K) : (turn : LinkTurn K) → Decidable (s.LoadsStored turn)
  | .client _ => isTrue trivial
  | .daemon => inferInstanceAs (Decidable (¬_))

def SentBy (d : CommandSlot K) (r : CommandRead K) : Prop :=
  r.cmdSeq1 = d.seq ∧ r.nominalTorques = d.nominalTorques ∧ r.commandFlags = d.commandFlags ∧
    r.obstacleSafetyMargin = d.obstacleSafetyMargin

end Step

section Invariant

variable {K : Type} [Field K]

/-- The dispatch whose sequence is in the slot. -/
def CommandLink.latest (s : CommandLink K) : CommandSlot K :=
  s.dispatches.getLast?.getD initialCommand

def DispatchPc.unstored : DispatchPc K → List CommandField
  | .storeField _ pending => pending
  | _ => []

structure LinkInv (s : CommandLink K) : Prop where
  seq : s.mem.slot .seq = .uint s.latest.seq
  stored : Copied s.latest.word s.mem.slot payloadFields s.client.pc.unstored
  inFlight : ∀ payload pending, s.client.pc = .storeField payload pending →
    payload = s.latest ∧ pending ⊆ payloadFields
  next : ∀ payload, s.client.pc = .storeSeq payload → s.latest.seq < payload.seq
  published : s.latest.seq ≠ 0 → s.latest ∈ s.dispatches
  reading : ∀ cmdSeq1 frame pending, s.daemon = .loadField cmdSeq1 frame pending →
    cmdSeq1 ≠ 0 ∧ cmdSeq1 ≤ s.latest.seq ∧ pending ⊆ ingestFields ∧
      (s.latest.seq = cmdSeq1 → Copied s.latest.word frame ingestFields pending)
  reads : ∀ r ∈ s.reads, r.Accepted → ∃ d ∈ s.dispatches, SentBy d r

theorem linkInv_start : LinkInv (CommandLink.start : CommandLink K) := by
  refine ⟨rfl, fun f _ _ => rfl, ?_, ?_, fun h => absurd rfl h, ?_, ?_⟩
  · intro payload pending h
    cases h
  · intro payload h
    cases h
  · intro cmdSeq1 frame pending h
    cases h
  · intro r member
    cases member

/-- A client that is not storing a payload changes nothing the daemon loads. -/
theorem LinkInv.setClient {s : CommandLink K} (h : LinkInv s) (heartbeat : Nat)
    (client : Dispatcher K) (settled : s.client.pc.unstored = [])
    (notStoring : ∀ payload pending, client.pc ≠ .storeField payload pending)
    (next : ∀ payload, client.pc = .storeSeq payload → s.latest.seq < payload.seq) :
    LinkInv { s with mem := { s.mem with heartbeatPython := heartbeat }, client := client } := by
  have stored := h.stored
  rw [settled] at stored
  refine ⟨h.seq, fun f member _ => stored.done member, ?_, next, h.published, h.reading, h.reads⟩
  intro payload pending storing
  exact absurd storing (notStoring payload pending)

/-- Publishing a sequence makes every frame in flight an old one. -/
theorem LinkInv.storeSeq {s : CommandLink K} (h : LinkInv s) {payload : CommandSlot K}
    (later : s.latest.seq < payload.seq) (counter : Nat) :
    LinkInv { s with
      mem := { s.mem with slot := Function.update s.mem.slot .seq (.uint payload.seq) }
      client := ⟨counter, .storeField payload payloadFields⟩
      dispatches := s.dispatches ++ [payload] } := by
  have latest : (s.dispatches ++ [payload]).getLast?.getD initialCommand = payload := by simp
  constructor
  case seq => simp only [CommandLink.latest, latest, Function.update_self]
  case stored => exact copied_start _ _ _
  case inFlight =>
    rintro _ _ ⟨⟩
    exact ⟨latest.symm, List.Subset.refl _⟩
  case next =>
    intro other storing
    cases storing
  case published =>
    intro _
    simp only [CommandLink.latest, latest]
    exact List.mem_append_right _ List.mem_cons_self
  case reading =>
    intro cmdSeq1 frame pending loading
    obtain ⟨nonzero, order, sub, _⟩ := h.reading cmdSeq1 frame pending loading
    simp only [CommandLink.latest, latest]
    exact ⟨nonzero, by omega, sub, fun same => by omega⟩
  case reads =>
    intro r member accepted
    obtain ⟨d, sent, frame⟩ := h.reads r member accepted
    exact ⟨d, List.mem_append_left _ sent, frame⟩

theorem LinkInv.storeField {s : CommandLink K} (h : LinkInv s) {payload : CommandSlot K}
    {f : CommandField} {rest : List CommandField}
    (storing : s.client.pc = .storeField payload (f :: rest)) (counter : Nat) :
    LinkInv { s with
      mem := { s.mem with slot := Function.update s.mem.slot f (payload.word f) }
      client := ⟨counter, .storeField payload rest⟩ } := by
  obtain ⟨rfl, sub⟩ := h.inFlight _ _ storing
  have stored := h.stored
  rw [storing] at stored
  have notSeq : f ≠ .seq := fun eq => seq_not_payload (eq ▸ sub List.mem_cons_self)
  refine ⟨?_, stored.copy rfl, ?_, ?_, h.published, h.reading, h.reads⟩
  · exact (Function.update_of_ne notSeq.symm _ _).trans h.seq
  · rintro _ _ ⟨⟩
    exact ⟨rfl, fun g member => sub (List.mem_cons_of_mem f member)⟩
  · intro other storing
    cases storing

theorem LinkInv.clientStep {s : CommandLink K} (h : LinkInv s)
    (packFloat : Ieee K → Option (Ieee K)) (args : DispatchArgs K) :
    LinkInv (s.clientStep packFloat args) := by
  obtain ⟨mem, ⟨counter, pc⟩, daemon, dispatches, reads⟩ := s
  simp only [CommandLink.clientStep, dispatchStep]
  cases pc with
  | idle =>
    simp only [DispatchPc.publishing, List.append_nil]
    split
    next => exact h.setClient _ _ rfl (by simp) (by simp)
    next => exact h.setClient mem.heartbeatPython _ rfl (by simp) (by simp)
  | loadSeq args =>
    simp only [DispatchPc.publishing, List.append_nil]
    split
    next => exact h.setClient mem.heartbeatPython _ rfl (by simp) (by simp)
    next payload packed =>
      refine h.setClient mem.heartbeatPython _ rfl (by simp) ?_
      rintro _ ⟨⟩
      rw [(packCommand_ok packed).1, show mem.slot .seq = _ from h.seq]
      exact seq_lt_finalSeq _
  | storeSeq payload => exact h.storeSeq (h.next payload rfl) counter
  | storeField payload pending =>
    simp only [DispatchPc.publishing, List.append_nil]
    cases pending with
    | nil => exact h.setClient mem.heartbeatPython _ rfl (by simp) (by simp)
    | cons f rest => exact h.storeField rfl counter

theorem sentBy_of_copied {d : CommandSlot K} {frame : CommandField → Word K} {cmdSeq1 : Nat}
    (same : d.seq = cmdSeq1) (copied : Copied d.word frame ingestFields []) (cmdSeq2 : Nat) :
    SentBy d (commandRead cmdSeq1 frame cmdSeq2) := by
  refine ⟨same.symm, funext fun i => ?_, ?_, ?_⟩
  · exact congrArg Word.toFloat (copied.done (f := .nominalTorque i) (by simp [ingestFields]))
  · exact congrArg Word.toNat (copied.done (f := .commandFlags) (by simp [ingestFields]))
  · exact congrArg Word.toFloat (copied.done (f := .obstacleSafetyMargin) (by simp [ingestFields]))

theorem LinkInv.daemonStep {s : CommandLink K} (h : LinkInv s) (clean : ¬s.LoadsUnstored) :
    LinkInv s.daemonStep := by
  have seq := h.seq
  obtain ⟨mem, client, daemon, dispatches, reads⟩ := s
  unfold CommandLink.daemonStep
  cases daemon with
  | loadSeq1 =>
    simp only [show mem.slot .seq = _ from seq, Word.toNat]
    split
    next fresh =>
      refine { h with reading := ?_ }
      rintro _ _ _ ⟨⟩
      exact ⟨fresh.2, le_rfl, List.Subset.refl _, fun _ => copied_start _ _ _⟩
    next stale =>
      refine { h with reads := ?_ }
      intro r member accepted
      rcases List.mem_append.mp member with member | member
      · exact h.reads r member accepted
      · obtain rfl := List.mem_singleton.mp member
        exact absurd ⟨accepted.1, accepted.2.1⟩ stale
  | loadField cmdSeq1 frame pending =>
    obtain ⟨nonzero, order, sub, copied⟩ := h.reading cmdSeq1 frame pending rfl
    cases pending with
    | cons f rest =>
      refine { h with reading := ?_ }
      rintro _ _ _ ⟨⟩
      refine ⟨nonzero, order, fun g member => sub (List.mem_cons_of_mem f member), fun same => ?_⟩
      have field := ingestFields_subset (sub List.mem_cons_self)
      have unstored : f ∉ client.pc.unstored := by
        intro pendingStore
        cases hpc : client.pc with
        | storeField payload pending =>
          rw [hpc] at pendingStore
          obtain ⟨rfl, _⟩ := h.inFlight _ _ hpc
          apply clean
          simp only [CommandLink.LoadsUnstored, hpc]
          exact ⟨same, pendingStore⟩
        | _ => simp [hpc, DispatchPc.unstored] at pendingStore
      exact (copied same).copy (h.stored f field unstored)
    | nil =>
      simp only [show mem.slot .seq = _ from seq, Word.toNat]
      refine { h with reading := ?_, reads := ?_ }
      · intro _ _ _ loading
        cases loading
      · intro r member accepted
        rcases List.mem_append.mp member with member | member
        · exact h.reads r member accepted
        · obtain rfl := List.mem_singleton.mp member
          have same := Eq.symm accepted.2.2
          exact ⟨_, h.published (fun zero => nonzero (same.symm.trans zero)),
            sentBy_of_copied same (copied same) _⟩

theorem LinkInv.run {s : CommandLink K} (h : LinkInv s) (packFloat : Ieee K → Option (Ieee K))
    {turns : List (LinkTurn K)}
    (clean : Allowed (CommandLink.step packFloat) CommandLink.LoadsStored s turns) :
    LinkInv (s.run packFloat turns) := by
  refine invariant_of_allowed (fun s turn inv ok => ?_) h clean
  cases turn with
  | client args => exact inv.clientStep packFloat args
  | daemon => exact inv.daemonStep ok

end Invariant

/-- Command seqlock consistency: while no tick loads what the dispatch it reads has
yet to store, every kept frame is that of one dispatch. -/
theorem kept_frames_sent {K : Type} [Field K] (packFloat : Ieee K → Option (Ieee K))
    (turns : List (LinkTurn K))
    (clean : Allowed (CommandLink.step packFloat) CommandLink.LoadsStored CommandLink.start turns) :
    ∀ r ∈ (CommandLink.start.run packFloat turns).reads, r.Accepted →
      ∃ d ∈ (CommandLink.start.run packFloat turns).dispatches, SentBy d r :=
  (linkInv_start.run packFloat clean).reads

/-- The first accesses of a dispatch of seven equal torques; it takes 21. -/
def dispatchTurns (torque : ℚ) (accesses : Nat) : List (LinkTurn ℚ) :=
  List.replicate accesses (.client ⟨List.replicate 7 (.fin torque), .fin 0.08, .fin 15⟩)

/-- The second dispatch begins within one read of the daemon and stays ahead of the next. -/
def overlappedTurns : List (LinkTurn ℚ) :=
  dispatchTurns 1 21 ++ List.replicate 3 .daemon ++ dispatchTurns 9 2 ++ List.replicate 8 .daemon ++
    dispatchTurns 9 3 ++ (List.replicate 8 (dispatchTurns 9 2 ++ [.daemon])).flatten ++
    List.replicate 3 .daemon

theorem overlappedTurns_clean : Allowed (CommandLink.step some) CommandLink.LoadsStored
    CommandLink.start overlappedTurns := by
  decide +kernel

theorem kept_frames_sent_overlapped :
    ((CommandLink.start.run some overlappedTurns).reads.map fun r =>
        (r.cmdSeq1, r.cmdSeq2, r.nominalTorques 6)) = [(2, 2, .fin 1), (4, 4, .fin 9)] ∧
      ∀ r ∈ (CommandLink.start.run some overlappedTurns).reads, r.Accepted →
        ∃ d ∈ (CommandLink.start.run some overlappedTurns).dispatches, SentBy d r :=
  ⟨by decide +kernel, kept_frames_sent some overlappedTurns overlappedTurns_clean⟩

/-- A whole tick's read inside the second dispatch, after its first torque. -/
def tornTurns : List (LinkTurn ℚ) :=
  dispatchTurns 1 21 ++ dispatchTurns 9 4 ++ List.replicate 11 .daemon

theorem torn_frame_kept :
    ∃ r ∈ (CommandLink.start.run some tornTurns).reads, r.Accepted ∧
      r.nominalTorques 0 = .fin 9 ∧ r.nominalTorques 1 = .fin 1 ∧
      ∀ d ∈ (CommandLink.start.run some tornTurns).dispatches,
        d.nominalTorques ≠ r.nominalTorques := by
  decide +kernel

end NeuroKinetic
