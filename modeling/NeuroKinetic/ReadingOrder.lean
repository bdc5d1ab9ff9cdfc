import NeuroKinetic.TelemetryFrames

namespace NeuroKinetic

variable {ι K : Type}

section Told

variable [Field K] [DecidableEq ι]

/-- What a turn returns to a client. -/
def TelemetryLink.tells (s : TelemetryLink ι K) (client : ι) :
    TelemetryTurn ι K → List (TelemetryReading K)
  | .daemon _ => []
  | .reader caller =>
    if caller = client then (s.readerStep caller).returned.drop s.returned.length else []

/-- The dictionaries that a client's own calls return, in order. -/
def TelemetryLink.told (s : TelemetryLink ι K) (client : ι) :
    List (TelemetryTurn ι K) → List (TelemetryReading K)
  | [] => []
  | turn :: rest => s.tells client turn ++ TelemetryLink.told (s.step turn) client rest

end Told

section Sequence

/-- The sequence that the slot would have if it did not wrap around. -/
def TelemetryLink.sequenceTotal (s : TelemetryLink ι K) : Nat :=
  match s.daemon with
  | .storeField .. => 2 * s.published.length + 1
  | _ => 2 * s.published.length

def PublishPc.Follows (published : Nat) : PublishPc K → Prop
  | .idle => True
  | .storeOdd _ currentSeq => currentSeq = 2 * published % 2 ^ 64
  | .storeField _ currentSeq pending => currentSeq = 2 * published % 2 ^ 64 ∧ .seq ∉ pending

structure SequenceHeld (s : TelemetryLink ι K) : Prop where
  seq : s.slot .seq = .uint (s.sequenceTotal % 2 ^ 64)
  daemon : s.daemon.Follows s.published.length

/-- What a client is told next is no older than a given sequence. -/
def SlicePc.After (low total : Nat) : SlicePc K → Prop
  | .loadField _ raw pending =>
    .seq ∉ pending ∧ ∃ n, low ≤ n ∧ n ≤ total ∧ raw .seq = .uint (n % 2 ^ 64)
  | _ => True

theorem SlicePc.After.later {low total total' : Nat} {pc : SlicePc K} (h : pc.After low total)
    (grown : total ≤ total') : pc.After low total' := by
  cases pc with
  | idle => trivial
  | loadSeq attempts => trivial
  | loadField attempts raw pending =>
    obtain ⟨loaded, n, after, before, seq⟩ := h
    exact ⟨loaded, n, after, before.trans grown, seq⟩

theorem sequenceHeld_start [Field K] : SequenceHeld (TelemetryLink.start : TelemetryLink ι K) :=
  ⟨rfl, trivial⟩

theorem SequenceHeld.daemonStep {s : TelemetryLink ι K} (h : SequenceHeld s)
    (frame : TelemetrySlot K) : SequenceHeld (s.daemonStep frame) ∧
      s.sequenceTotal ≤ (s.daemonStep frame).sequenceTotal := by
  obtain ⟨slot, heartbeat, daemon, readers, published, returned⟩ := s
  have seq := h.seq
  have follows := h.daemon
  cases daemon with
  | idle =>
    refine ⟨⟨seq, ?_⟩, le_rfl⟩
    show (slot .seq).toNat = _
    rw [show slot .seq = _ from seq]
    rfl
  | storeOdd frame currentSeq =>
    have follows : currentSeq = 2 * published.length % 2 ^ 64 := follows
    have odd : Function.update slot .seq (.uint ((currentSeq + 1) % 2 ^ 64)) .seq =
        .uint ((2 * published.length + 1) % 2 ^ 64) := by
      rw [Function.update_self, follows, Nat.mod_add_mod]
    exact ⟨⟨odd, follows, seq_not_publish⟩, Nat.le_succ _⟩
  | storeField frame currentSeq pending =>
    obtain ⟨follows, loaded⟩ := follows
    have follows : currentSeq = 2 * published.length % 2 ^ 64 := follows
    cases pending with
    | cons f rest =>
      have notSeq : TelemetryField.seq ≠ f := fun same => loaded (same ▸ List.mem_cons_self)
      refine ⟨⟨?_, follows, fun member => loaded (List.mem_cons_of_mem f member)⟩, le_rfl⟩
      exact (Function.update_of_ne notSeq _ _).trans seq
    | nil =>
      have counted : 2 * (published ++ [{ frame with seq := (currentSeq + 2) % 2 ^ 64 }]).length =
          2 * published.length + 2 := by
        rw [List.length_append, List.length_cons, List.length_nil]
        omega
      have even : Function.update slot .seq (.uint ((currentSeq + 2) % 2 ^ 64)) .seq = .uint
          (2 * (published ++ [{ frame with seq := (currentSeq + 2) % 2 ^ 64 }]).length % 2 ^ 64) := by
        rw [Function.update_self, counted, follows, Nat.mod_add_mod]
      exact ⟨⟨even, trivial⟩, le_of_le_of_eq (Nat.le_succ _) counted.symm⟩

end Sequence

section Readers

variable [Field K] [DecidableEq ι]

/-- A reader's turn leaves the daemon, its slot and the other readers alone. -/
theorem readerStep_kept (s : TelemetryLink ι K) (client : ι) :
    (s.readerStep client).slot = s.slot ∧ (s.readerStep client).daemon = s.daemon ∧
      (s.readerStep client).published = s.published ∧
      ∀ other, other ≠ client → (s.readerStep client).readers other = s.readers other := by
  have moved : ∀ {other : ι} {reader : TelemetryReader K}, other ≠ client →
      Function.update s.readers client reader other = s.readers other := by
    intro other reader different
    exact Function.update_of_ne different _ _
  unfold TelemetryLink.readerStep
  split
  next =>
    dsimp only
    split
    next => exact ⟨rfl, rfl, rfl, fun _ => moved⟩
    next => exact ⟨rfl, rfl, rfl, fun _ => moved⟩
  next attempts pc => exact ⟨rfl, rfl, rfl, fun _ => moved⟩
  next attempts raw f rest pc => exact ⟨rfl, rfl, rfl, fun _ => moved⟩
  next attempts raw pc =>
    split
    next => exact ⟨rfl, rfl, rfl, fun _ => moved⟩
    next =>
      split
      next => exact ⟨rfl, rfl, rfl, fun _ => moved⟩
      next => exact ⟨rfl, rfl, rfl, fun _ => moved⟩

theorem SequenceHeld.readerStep {s : TelemetryLink ι K} (h : SequenceHeld s) (client : ι) :
    SequenceHeld (s.readerStep client) ∧
      (s.readerStep client).sequenceTotal = s.sequenceTotal := by
  obtain ⟨slot, daemon, published, _⟩ := readerStep_kept s client
  have total : (s.readerStep client).sequenceTotal = s.sequenceTotal := by
    simp only [TelemetryLink.sequenceTotal, daemon, published]
  refine ⟨⟨?_, ?_⟩, total⟩
  · rw [slot, total]
    exact h.seq
  · rw [daemon, published]
    exact h.daemon

/-- What a client's own turn does to what it is told next: nothing, or it is told a sequence
that is no older than those before. -/
inductive TellOutcome (s : TelemetryLink ι K) (client : ι) (low : Nat) : Prop
  | quiet (told : ∀ r ∈ s.tells client (.reader client), r.sequence = 0)
      (after : ((s.readerStep client).readers client).pc.After low s.sequenceTotal)
  | told (r : TelemetryReading K) (n : Nat) (only : s.tells client (.reader client) = [r])
      (safe : ReadSafe (n % 2 ^ 64)) (sequence : r.sequence = n % 2 ^ 64) (fresh : low ≤ n)
      (before : n ≤ s.sequenceTotal) (after : ((s.readerStep client).readers client).pc = .idle)

theorem tellOutcome {s : TelemetryLink ι K} (h : SequenceHeld s) (client : ι) {low : Nat}
    (below : low ≤ s.sequenceTotal) (held : (s.readers client).pc.After low s.sequenceTotal) :
    TellOutcome s client low := by
  have silent : ∀ pc, s.readerStep client = s.setReader client pc →
      s.tells client (.reader client) = [] := by
    intro pc step
    simp only [TelemetryLink.tells, if_true, step, TelemetryLink.setReader, List.drop_length]
  have moved : ∀ pc, s.readerStep client = s.setReader client pc →
      ((s.readerStep client).readers client).pc = pc := by
    intro pc step
    rw [step, TelemetryLink.setReader]
    simp only [Function.update_self]
  cases pcEq : (s.readers client).pc with
  | idle =>
    have step : s.tells client (.reader client) = [] ∧
        ((s.readerStep client).readers client).pc.After low s.sequenceTotal := by
      simp only [TelemetryLink.tells, if_true, TelemetryLink.readerStep, pcEq]
      split
      next => exact ⟨List.drop_length, by simp only [Function.update_self]; trivial⟩
      next => exact ⟨List.drop_length, by simp only [Function.update_self]; trivial⟩
    refine .quiet (fun r member => ?_) step.2
    rw [step.1] at member
    cases member
  | loadSeq attempts =>
    have step : s.readerStep client = s.setReader client (.loadField attempts
        (Function.update initialTelemetry.word .seq (s.slot .seq)) sliceFields) := by
      simp only [TelemetryLink.readerStep, pcEq]
    refine .quiet (fun r member => ?_) ?_
    · rw [silent _ step] at member
      cases member
    · rw [moved _ step]
      exact ⟨fun member => mem_sliceFields.mp member rfl, _, below, le_rfl,
        (Function.update_self _ _ _).trans h.seq⟩
  | loadField attempts raw pending =>
    rw [pcEq] at held
    obtain ⟨loaded, n, fresh, before, seq⟩ := held
    cases pending with
    | cons f rest =>
      have step : s.readerStep client = s.setReader client
          (.loadField attempts (Function.update raw f (s.slot f)) rest) := by
        simp only [TelemetryLink.readerStep, pcEq]
      have notSeq : TelemetryField.seq ≠ f := fun same => loaded (same ▸ List.mem_cons_self)
      refine .quiet (fun r member => ?_) ?_
      · rw [silent _ step] at member
        cases member
      · rw [moved _ step]
        exact ⟨fun member => loaded (List.mem_cons_of_mem f member), n, fresh, before,
          (Function.update_of_ne notSeq _ _).trans seq⟩
    | nil =>
      have returns : ∀ r, s.readerStep client =
          { s.setReader client .idle with returned := s.returned ++ [r] } →
          s.tells client (.reader client) = [r] := by
        intro r step
        simp only [TelemetryLink.tells, if_true, step, List.drop_left]
      have idle : ∀ r, s.readerStep client =
          { s.setReader client .idle with returned := s.returned ++ [r] } →
          ((s.readerStep client).readers client).pc = .idle := by
        intro r step
        rw [step, TelemetryLink.setReader]
        simp only [Function.update_self]
      by_cases safe : ReadSafe (raw .seq).toNat
      · have step : s.readerStep client = { s.setReader client .idle with
            returned := s.returned ++ [(TelemetrySlot.ofWords raw).reading] } := by
          simp only [TelemetryLink.readerStep, pcEq, if_pos safe]
        have sequence : (TelemetrySlot.ofWords raw).reading.sequence = n % 2 ^ 64 :=
          congrArg Word.toNat seq
        rw [seq] at safe
        exact .told _ n (returns _ step) safe sequence fresh before (idle _ step)
      · cases attempts with
        | zero =>
          have step : s.readerStep client =
              { s.setReader client .idle with returned := s.returned ++ [emptyReading] } := by
            simp only [TelemetryLink.readerStep, pcEq, if_neg safe]
          refine .quiet (fun r member => ?_) ?_
          · rw [returns _ step] at member
            rw [List.mem_singleton.mp member]
            rfl
          · rw [idle _ step]
            trivial
        | succ left =>
          have step : s.readerStep client = s.setReader client (.loadSeq left) := by
            simp only [TelemetryLink.readerStep, pcEq, if_neg safe]
          refine .quiet (fun r member => ?_) ?_
          · rw [silent _ step] at member
            cases member
          · rw [moved _ step]
            trivial

end Readers

section Ticks

/-- The ticks whose sequences a client is told, in the order of the answers. -/
structure ToldTicks (told : List (TelemetryReading K)) (low high : Nat) (ticks : List Nat) :
    Prop where
  sequences : (told.filter fun r => r.sequence ≠ 0).map TelemetryReading.sequence =
    ticks.map fun k => 2 * k % 2 ^ 64
  sorted : ticks.Pairwise (· ≤ ·)
  bounds : ∀ k ∈ ticks, low ≤ 2 * k ∧ 2 * k ≤ high

theorem ToldTicks.quiet {told quiet : List (TelemetryReading K)} {low high : Nat}
    {ticks : List Nat} (h : ToldTicks told low high ticks) (silent : ∀ r ∈ quiet, r.sequence = 0) :
    ToldTicks (quiet ++ told) low high ticks := by
  have none : (quiet.filter fun r => r.sequence ≠ 0) = [] := by
    rw [List.filter_eq_nil_iff]
    intro r member
    simp [silent r member]
  refine ⟨?_, h.sorted, h.bounds⟩
  rw [List.filter_append, none, List.nil_append]
  exact h.sequences

theorem ToldTicks.told {told : List (TelemetryReading K)} {r : TelemetryReading K}
    {low n high : Nat} {ticks : List Nat} (h : ToldTicks told n high ticks)
    (safe : ReadSafe (n % 2 ^ 64)) (sequence : r.sequence = n % 2 ^ 64) (fresh : low ≤ n)
    (before : n ≤ high) : ToldTicks (r :: told) low high (n / 2 :: ticks) := by
  obtain ⟨even, nonzero⟩ := safe
  have whole : 2 * (n / 2) = n := by omega
  refine ⟨?_, ?_, ?_⟩
  · have kept : ((r :: told).filter fun r => r.sequence ≠ 0) =
        r :: told.filter fun r => r.sequence ≠ 0 :=
      List.filter_cons_of_pos (decide_eq_true (sequence ▸ nonzero))
    rw [kept, List.map_cons, List.map_cons, whole, sequence, h.sequences]
  · refine List.pairwise_cons.mpr ⟨fun k member => ?_, h.sorted⟩
    have later := (h.bounds k member).1
    omega
  · intro k member
    rcases List.mem_cons.mp member with rfl | member
    · omega
    · have bounds := h.bounds k member
      omega

end Ticks

section Runs

theorem daemonStep_readers (s : TelemetryLink ι K) (frame : TelemetrySlot K) :
    (s.daemonStep frame).readers = s.readers := by
  unfold TelemetryLink.daemonStep
  split <;> rfl

variable [Field K] [DecidableEq ι]

theorem SequenceHeld.run {s : TelemetryLink ι K} (h : SequenceHeld s)
    (turns : List (TelemetryTurn ι K)) :
    SequenceHeld (s.run turns) ∧ s.sequenceTotal ≤ (s.run turns).sequenceTotal := by
  induction turns generalizing s with
  | nil => exact ⟨h, le_rfl⟩
  | cons turn rest ih =>
    cases turn with
    | daemon frame =>
      obtain ⟨next, grown⟩ := h.daemonStep frame
      obtain ⟨held, later⟩ := ih next
      exact ⟨held, grown.trans later⟩
    | reader client =>
      obtain ⟨next, total⟩ := h.readerStep client
      obtain ⟨held, later⟩ := ih next
      exact ⟨held, total.symm.le.trans later⟩

theorem told_ticks (client : ι) (turns : List (TelemetryTurn ι K)) {s : TelemetryLink ι K}
    (h : SequenceHeld s) {low : Nat} (below : low ≤ s.sequenceTotal)
    (held : (s.readers client).pc.After low s.sequenceTotal) :
    ∃ ticks, ToldTicks (s.told client turns) low (s.run turns).sequenceTotal ticks := by
  induction turns generalizing s low with
  | nil => exact ⟨[], rfl, List.Pairwise.nil, fun k member => absurd member List.not_mem_nil⟩
  | cons turn rest ih =>
    cases turn with
    | daemon frame =>
      obtain ⟨next, grown⟩ := h.daemonStep frame
      have later : ((s.daemonStep frame).readers client).pc.After low
          (s.daemonStep frame).sequenceTotal := by
        rw [daemonStep_readers]
        exact held.later grown
      exact ih next (below.trans grown) later
    | reader caller =>
      obtain ⟨next, total⟩ := h.readerStep caller
      by_cases same : caller = client
      · subst same
        cases tellOutcome h caller below held with
        | quiet silent after =>
          obtain ⟨ticks, told⟩ := ih next (total ▸ below) (total ▸ after)
          exact ⟨ticks, told.quiet silent⟩
        | told r n only safe sequence fresh before after =>
          have idle : ((s.readerStep caller).readers caller).pc.After n
              (s.readerStep caller).sequenceTotal := by
            rw [after]
            trivial
          obtain ⟨ticks, told⟩ := ih next (total ▸ before) idle
          have bound := before.trans (h.run (.reader caller :: rest)).2
          refine ⟨n / 2 :: ticks, ?_⟩
          rw [TelemetryLink.told, only]
          exact told.told safe sequence fresh bound
      · have silent : s.tells client (.reader caller) = [] := if_neg same
        have unmoved := (readerStep_kept s caller).2.2.2 client fun equal => same equal.symm
        obtain ⟨ticks, told⟩ := ih next (total ▸ below) (by
          show ((s.readerStep caller).readers client).pc.After low (s.readerStep caller).sequenceTotal
          rw [unmoved, total]
          exact held)
        refine ⟨ticks, ?_⟩
        rw [TelemetryLink.told, silent]
        exact told

/-- In any interleaving the sequences that a client is told, torn frames included, are those of
published ticks in their order, and none is older than the last tick published before its calls
began. -/
theorem told_in_order (before after : List (TelemetryTurn ι K)) (client : ι)
    (idle : ((TelemetryLink.start.run before).readers client).pc = .idle) :
    let s := TelemetryLink.start.run before
    ∃ ticks : List Nat,
      ((s.told client after).filter fun r => r.sequence ≠ 0).map TelemetryReading.sequence =
          ticks.map (fun k => 2 * k % 2 ^ 64) ∧
        ticks.Pairwise (· ≤ ·) ∧
        ∀ k ∈ ticks, s.published.length ≤ k ∧ k ≤ (s.run after).published.length := by
  intro s
  have held : SequenceHeld s := (sequenceHeld_start.run before).1
  have around : ∀ s : TelemetryLink ι K, 2 * s.published.length ≤ s.sequenceTotal ∧
      s.sequenceTotal ≤ 2 * s.published.length + 1 := by
    intro s
    unfold TelemetryLink.sequenceTotal
    split <;> omega
  have reading : (s.readers client).pc.After s.sequenceTotal s.sequenceTotal := by
    rw [idle]
    trivial
  obtain ⟨ticks, told⟩ := told_ticks client after held le_rfl reading
  refine ⟨ticks, told.sequences, told.sorted, fun k member => ?_⟩
  have bounds := told.bounds k member
  have first := (around s).1
  have last := (around (s.run after)).2
  omega

end Runs

section Twice

def publishOnce : List (TelemetryTurn Bool ℚ) := List.replicate 29 (.daemon initialTelemetry)

/-- A read of the first client. -/
def readOnce : List (TelemetryTurn Bool ℚ) := List.replicate 29 (.reader true)

/-- After one publication its calls begin, around a second one. -/
theorem told_in_order_twice :
    let s := TelemetryLink.start.run publishOnce
    let calls := readOnce ++ publishOnce ++ readOnce
    (s.told true calls).map TelemetryReading.sequence = [2, 4] ∧
      ∃ ticks : List Nat,
        ((s.told true calls).filter fun r => r.sequence ≠ 0).map TelemetryReading.sequence =
            ticks.map (fun k => 2 * k % 2 ^ 64) ∧
          ticks.Pairwise (· ≤ ·) ∧
          ∀ k ∈ ticks, s.published.length ≤ k ∧ k ≤ (s.run calls).published.length :=
  ⟨by decide +kernel, told_in_order publishOnce (readOnce ++ publishOnce ++ readOnce) true rfl⟩

end Twice

end NeuroKinetic
