import NeuroKinetic.TelemetrySeqlock

open OrderedCopy

namespace NeuroKinetic

variable {ι K : Type}

/-- Between two publications a sequence that may be read stands over one frame. -/
def Settled (slot : TelemetryField → Word K) (published : List (TelemetrySlot K)) : Prop :=
  ∃ n, slot .seq = .uint n ∧ n % 2 = 0 ∧ (n ≠ 0 → ∃ frame ∈ published, slot = frame.word)

def PublishHeld (slot : TelemetryField → Word K) (published : List (TelemetrySlot K)) :
    PublishPc K → Prop
  | .idle => Settled slot published
  | .storeOdd _ currentSeq => Settled slot published ∧ slot .seq = .uint currentSeq
  | .storeField frame currentSeq pending =>
    currentSeq % 2 = 0 ∧ slot .seq = .uint ((currentSeq + 1) % 2 ^ 64) ∧
      pending ⊆ publishFields ∧ Copied frame.word slot publishFields pending

/-- A slice that will be accepted is so far a copy of one frame, and what it has
yet to load is still that frame's. -/
def SliceHeld (slot : TelemetryField → Word K) (published : List (TelemetrySlot K)) :
    SlicePc K → Prop
  | .loadField _ raw pending =>
    pending ⊆ sliceFields ∧ (ReadSafe (raw .seq).toNat → ∃ frame ∈ published,
      Copied frame.word raw (.seq :: sliceFields) pending ∧ Intact frame.word slot pending)
  | _ => True

section Slices

variable {slot : TelemetryField → Word K} {published : List (TelemetrySlot K)} {pc : SlicePc K}
  {f : TelemetryField}

theorem SliceHeld.store (h : SliceHeld slot published pc) (free : ¬pc.Awaits f) (value : Word K) :
    SliceHeld (Function.update slot f value) published pc := by
  cases pc with
  | idle => trivial
  | loadSeq attempts => trivial
  | loadField attempts raw pending =>
    refine ⟨h.1, fun safe => ?_⟩
    obtain ⟨frame, member, copied, intact⟩ := h.2 safe
    exact ⟨frame, member, copied, intact.store value (fun pendingLoad => free ⟨safe, pendingLoad⟩)⟩

theorem SliceHeld.publish (h : SliceHeld slot published pc) (frame : TelemetrySlot K) :
    SliceHeld slot (published ++ [frame]) pc := by
  cases pc with
  | idle => trivial
  | loadSeq attempts => trivial
  | loadField attempts raw pending =>
    refine ⟨h.1, fun safe => ?_⟩
    obtain ⟨old, member, rest⟩ := h.2 safe
    exact ⟨old, List.mem_append_left _ member, rest⟩

theorem SliceHeld.not_awaits_seq (h : SliceHeld slot published pc) : ¬pc.Awaits .seq := by
  cases pc with
  | idle => exact id
  | loadSeq attempts => exact id
  | loadField attempts raw pending =>
    exact fun awaits => mem_sliceFields.mp (h.1 awaits.2) rfl

end Slices

structure TelemetryInv (s : TelemetryLink ι K) : Prop where
  publish : PublishHeld s.slot s.published s.daemon
  slices : ∀ client, SliceHeld s.slot s.published (s.readers client).pc
  returned : ∀ r ∈ s.returned, r.sequence ≠ 0 → ∃ frame ∈ s.published, r = frame.reading

theorem word_seq_eq (frame : TelemetrySlot K) (seq : Nat) {f : TelemetryField} (h : f ≠ .seq) :
    TelemetrySlot.word { frame with seq := seq } f = frame.word f := by
  cases f with
  | seq => exact absurd rfl h
  | _ => rfl

theorem settled_publish {slot : TelemetryField → Word K} {frame : TelemetrySlot K} {seq : Nat}
    (published : List (TelemetrySlot K)) (even : seq % 2 = 0)
    (copied : Copied frame.word slot publishFields []) :
    Settled (Function.update slot .seq (.uint seq)) (published ++ [{ frame with seq := seq }]) := by
  refine ⟨seq, Function.update_self _ _ _, even, fun _ => ?_⟩
  refine ⟨_, List.mem_append_right _ List.mem_cons_self, funext fun f => ?_⟩
  by_cases eq : f = .seq
  · rw [eq, Function.update_self]
    rfl
  · rw [Function.update_of_ne eq, word_seq_eq frame seq eq]
    exact copied.done (mem_publishFields eq)

theorem TelemetryInv.daemonStep {s : TelemetryLink ι K} (h : TelemetryInv s)
    (frame : TelemetrySlot K) (clean : s.StoresUnawaited (.daemon frame)) :
    TelemetryInv (s.daemonStep frame) := by
  obtain ⟨slot, heartbeat, daemon, readers, published, returned⟩ := s
  have publish := h.publish
  cases daemon with
  | idle =>
    obtain ⟨n, seq, even, frames⟩ := publish
    have current : slot .seq = .uint (slot .seq).toNat := by
      rw [show slot .seq = _ from seq]
      rfl
    exact ⟨⟨⟨n, seq, even, frames⟩, current⟩, h.slices, h.returned⟩
  | storeOdd frame currentSeq =>
    obtain ⟨⟨n, seq, even, _⟩, current⟩ := publish
    obtain rfl : n = currentSeq := Word.uint.inj (seq.symm.trans current)
    have stored : Function.update slot .seq (.uint ((n + 1) % 2 ^ 64)) .seq =
        .uint ((n + 1) % 2 ^ 64) := Function.update_self _ _ _
    dsimp only [TelemetryLink.daemonStep]
    refine ⟨⟨even, stored, List.Subset.refl _, copied_start _ _ _⟩,
      fun client => ?_, h.returned⟩
    exact (h.slices client).store (h.slices client).not_awaits_seq _
  | storeField frame currentSeq pending =>
    obtain ⟨even, seq, sub, copied⟩ := publish
    cases pending with
    | cons f rest =>
      have notSeq : f ≠ .seq := fun eq => seq_not_publish (eq ▸ sub List.mem_cons_self)
      dsimp only [TelemetryLink.daemonStep]
      refine ⟨⟨even, (Function.update_of_ne notSeq.symm _ _).trans seq,
        fun g member => sub (List.mem_cons_of_mem f member), copied.copy rfl⟩, fun client => ?_,
        h.returned⟩
      exact (h.slices client).store (clean client) _
    | nil =>
      dsimp only [TelemetryLink.daemonStep]
      refine ⟨settled_publish published (by omega) copied, fun client => ?_, ?_⟩
      · have held := (h.slices client).store (h.slices client).not_awaits_seq
          (.uint ((currentSeq + 2) % 2 ^ 64))
        exact held.publish _
      · intro r member nonzero
        obtain ⟨old, sent, eq⟩ := h.returned r member nonzero
        exact ⟨old, List.mem_append_left _ sent, eq⟩

/-- A sequence that is safe to read stands over a whole frame. -/
theorem TelemetryInv.safe_frame {s : TelemetryLink ι K} (h : TelemetryInv s)
    (safe : ReadSafe (s.slot .seq).toNat) : ∃ frame ∈ s.published, s.slot = frame.word := by
  have settled : ∀ {slot : TelemetryField → Word K} {published}, Settled slot published →
      ReadSafe (slot .seq).toNat → ∃ frame ∈ published, slot = frame.word := by
    rintro slot published ⟨n, seq, _, frames⟩ safe
    rw [seq] at safe
    exact frames safe.2
  have publish := h.publish
  cases hd : s.daemon with
  | idle =>
    rw [hd] at publish
    exact settled publish safe
  | storeOdd frame currentSeq =>
    rw [hd] at publish
    exact settled publish.1 safe
  | storeField frame currentSeq pending =>
    rw [hd] at publish
    obtain ⟨even, seq, _⟩ := publish
    rw [seq] at safe
    have odd := safe.1
    simp only [Word.toNat] at odd
    omega

theorem TelemetryInv.return {s : TelemetryLink ι K} (h : TelemetryInv s) {r : TelemetryReading K}
    (sound : r.sequence ≠ 0 → ∃ frame ∈ s.published, r = frame.reading) :
    TelemetryInv { s with returned := s.returned ++ [r] } := by
  refine ⟨h.publish, h.slices, fun other member nonzero => ?_⟩
  rcases List.mem_append.mp member with member | member
  · exact h.returned other member nonzero
  · obtain rfl := List.mem_singleton.mp member
    exact sound nonzero

section Start

variable [Field K]

theorem telemetryInv_start : TelemetryInv (TelemetryLink.start : TelemetryLink ι K) := by
  refine ⟨⟨0, rfl, rfl, fun h => absurd rfl h⟩, fun _ => trivial, fun r member => ?_⟩
  cases member

end Start

variable [DecidableEq ι]

theorem TelemetryInv.setReader {s : TelemetryLink ι K} (h : TelemetryInv s) (client : ι)
    (heartbeat counter : Nat) (pc : SlicePc K) (held : SliceHeld s.slot s.published pc) :
    TelemetryInv { s with
      heartbeatPython := heartbeat
      readers := Function.update s.readers client ⟨counter, pc⟩ } := by
  refine ⟨h.publish, fun other => ?_, h.returned⟩
  by_cases eq : other = client
  · rw [eq]
    simp only [Function.update_self]
    exact held
  · simp only [Function.update_of_ne eq]
    exact h.slices other

variable [Field K]

theorem TelemetryInv.readerStep {s : TelemetryLink ι K} (h : TelemetryInv s) (client : ι) :
    TelemetryInv (s.readerStep client) := by
  have held := h.slices client
  unfold TelemetryLink.readerStep
  split
  next =>
    dsimp only
    split
    next => exact h.setReader client _ _ _ trivial
    next => exact h.setReader client s.heartbeatPython _ _ trivial
  next attempts pc =>
    refine h.setReader client s.heartbeatPython _ _ ⟨List.Subset.refl _, fun safe => ?_⟩
    rw [Function.update_self] at safe
    obtain ⟨frame, member, eq⟩ := h.safe_frame safe
    refine ⟨frame, member, fun f _ unloaded => ?_, fun f _ => congrFun eq f⟩
    have first : f = .seq := by
      by_contra other
      exact unloaded (mem_sliceFields.mpr other)
    rw [first, Function.update_self, eq]
  next attempts raw f rest pc =>
    rw [pc] at held
    obtain ⟨sub, copy⟩ := held
    have notSeq : f ≠ .seq := mem_sliceFields.mp (sub List.mem_cons_self)
    refine h.setReader client s.heartbeatPython _ _
      ⟨fun g member => sub (List.mem_cons_of_mem f member), fun safe => ?_⟩
    rw [Function.update_of_ne notSeq.symm] at safe
    obtain ⟨frame, member, copied, intact⟩ := copy safe
    exact ⟨frame, member, copied.copy (intact f List.mem_cons_self), intact.tail⟩
  next attempts raw pc =>
    rw [pc] at held
    obtain ⟨_, copy⟩ := held
    split
    next safe =>
      obtain ⟨frame, member, copied, _⟩ := copy safe
      have whole : raw = frame.word := by
        funext f
        by_cases first : f = .seq
        · exact copied.done (first ▸ List.mem_cons_self)
        · exact copied.done (List.mem_cons_of_mem _ (mem_sliceFields.mpr first))
      refine (h.setReader client s.heartbeatPython _ .idle trivial).return fun _ => ?_
      exact ⟨frame, member, by rw [whole, TelemetrySlot.ofWords_word]⟩
    next =>
      split
      next => exact (h.setReader client s.heartbeatPython _ .idle trivial).return fun h => absurd rfl h
      next => exact h.setReader client s.heartbeatPython _ _ trivial

theorem TelemetryInv.run {s : TelemetryLink ι K} (h : TelemetryInv s)
    {turns : List (TelemetryTurn ι K)}
    (clean : Allowed TelemetryLink.step TelemetryLink.StoresUnawaited s turns) :
    TelemetryInv (s.run turns) := by
  refine invariant_of_allowed (fun s turn inv ok => ?_) h clean
  cases turn with
  | daemon frame => exact inv.daemonStep frame ok
  | reader client => exact inv.readerStep client

/-- Telemetry seqlock consistency: while the daemon stores no field that a client
with an accepted sequence has yet to load, every dictionary is one tick's frame. -/
theorem returned_frames_published (turns : List (TelemetryTurn ι K))
    (clean : Allowed TelemetryLink.step TelemetryLink.StoresUnawaited TelemetryLink.start turns) :
    ∀ r ∈ (TelemetryLink.start.run turns).returned, r.sequence ≠ 0 →
      ∃ frame ∈ (TelemetryLink.start.run turns).published, r = frame.reading :=
  (telemetryInv_start.run clean).returned

/-- The publication of a frame whose data are all the same number, by a daemon
that one client reads from. -/
def publishTurns (n : Nat) : List (TelemetryTurn Unit ℚ) :=
  List.replicate 29 (.daemon ⟨0, n, fun _ => .fin n, fun _ => .fin n, fun _ => .fin n, .fin n, 0, 0, 0⟩)

/-- The second publication follows the loads of one read and makes the next try again. -/
def overlappedReads : List (TelemetryTurn Unit ℚ) :=
  publishTurns 1 ++ List.replicate 20 (.reader ()) ++ (publishTurns 2).take 12 ++
    List.replicate 12 (.reader ()) ++ (publishTurns 2).drop 12 ++ List.replicate 60 (.reader ())

theorem overlappedReads_clean : Allowed TelemetryLink.step TelemetryLink.StoresUnawaited
    TelemetryLink.start overlappedReads := by
  decide +kernel

theorem returned_frames_published_overlapped :
    ((TelemetryLink.start.run overlappedReads).returned.map fun r =>
        (r.sequence, r.timestampNs, r.positions 6)) = [(2, 1, .fin 1), (4, 2, .fin 2)] ∧
      ∀ r ∈ (TelemetryLink.start.run overlappedReads).returned, r.sequence ≠ 0 →
        ∃ frame ∈ (TelemetryLink.start.run overlappedReads).published, r = frame.reading :=
  ⟨by decide +kernel, returned_frames_published overlappedReads overlappedReads_clean⟩

/-- A whole publication between a client's load of the timestamp and its next. -/
def overtakenTurns : List (TelemetryTurn Unit ℚ) :=
  publishTurns 1 ++ List.replicate 3 (.reader ()) ++ publishTurns 2 ++
    List.replicate 26 (.reader ())

theorem torn_dictionary_returned :
    ∃ r ∈ (TelemetryLink.start.run overtakenTurns).returned, r.sequence ≠ 0 ∧
      r.timestampNs = 1 ∧ r.positions 0 = .fin 2 ∧
      ∀ frame ∈ (TelemetryLink.start.run overtakenTurns).published,
        ¬(r.timestampNs = frame.timestampNs ∧ r.positions = frame.jointPositions) := by
  decide +kernel

end NeuroKinetic
