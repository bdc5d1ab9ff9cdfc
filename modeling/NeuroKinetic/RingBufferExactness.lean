import NeuroKinetic.RingBufferAccounting
import Mathlib.Data.List.Induction

open RingIndex

namespace NeuroKinetic

variable {T : Type} {capacity : Nat}

def SpscTurn.isProducer : SpscTurn T → Bool
  | .producer _ => true
  | .consumer => false

variable [NeZero capacity]

theorem SpscState.run_snoc (s : SpscState T capacity) (turns : List (SpscTurn T))
    (turn : SpscTurn T) : s.run (turns ++ [turn]) = (s.run turns).step turn := by
  rw [run, run, List.foldl_append]
  rfl

section Answers

theorem producerStep_drop {s : SpscState T capacity} {value : T}
    (h : (s.producerStep value).producer = .drop) :
    ∃ v head, s.producer = .loadTail v head ∧ increment head = s.ring.tail := by
  unfold SpscState.producerStep at h
  split at h
  next => cases h
  next v head pc =>
    split at h
    next full => exact ⟨v, head, pc, full⟩
    next => cases h
  all_goals cases h

theorem producerStep_refused {s : SpscState T capacity} {value : T}
    (h : (s.producerStep value).producer = .return false) : s.producer = .drop := by
  unfold SpscState.producerStep at h
  split at h
  next => cases h
  next => split at h <;> cases h
  next pc => exact pc
  all_goals cases h

variable [Inhabited T]

/-- The turns went past a load of the tail that found `capacity - 1` elements in the
queue, and gave the producer so many turns after it. -/
def FullAtLoad (capacity : Nat) [NeZero capacity] (turns : List (SpscTurn T)) (since : Nat) :
    Prop :=
  ∃ before value after, turns = before ++ .producer value :: after ∧
    after.countP SpscTurn.isProducer = since ∧
    let s := (SpscState.start : SpscState T capacity).run before
    (∃ v head, s.producer = .loadTail v head) ∧
      s.accepted.length = s.popped.length + (capacity - 1)

theorem FullAtLoad.snoc {turns : List (SpscTurn T)} {since : Nat}
    (h : FullAtLoad capacity turns since) (turn : SpscTurn T) :
    FullAtLoad capacity (turns ++ [turn]) (since + [turn].countP SpscTurn.isProducer) := by
  obtain ⟨before, value, after, rfl, count, load⟩ := h
  refine ⟨before, value, after ++ [turn], ?_, ?_, load⟩
  · rw [List.append_assoc, List.cons_append]
  · rw [List.countP_append, count]

/-- Where the producer drops its element, its last turn was the load that found the
queue full; once it is to answer false, its last but one. -/
theorem fullAtLoad_of_refused (turns : List (SpscTurn T)) :
    let s := (SpscState.start : SpscState T capacity).run turns
    (s.producer = .drop → FullAtLoad capacity turns 0) ∧
      (s.producer = .return false → FullAtLoad capacity turns 1) := by
  induction turns using List.reverseRecOn with
  | nil =>
    refine ⟨fun dropping => ?_, fun refused => ?_⟩
    · cases dropping
    · cases refused
  | append_singleton turns turn ih =>
    have inv : SpscInv ((SpscState.start : SpscState T capacity).run turns) :=
      spscInv_start.run turns
    rw [SpscState.run_snoc]
    cases turn with
    | consumer =>
      have kept := (consumerStep_producer
        ((SpscState.start : SpscState T capacity).run turns)).1
      refine ⟨fun dropping => ?_, fun refused => ?_⟩
      · exact (ih.1 (kept.symm.trans dropping)).snoc .consumer
      · exact (ih.2 (kept.symm.trans refused)).snoc .consumer
    | producer value =>
      refine ⟨fun dropping => ?_, fun refused => ?_⟩
      · obtain ⟨v, head, pc, full⟩ := producerStep_drop dropping
        have held := inv.producer
        rw [pc] at held
        obtain rfl : head = _ := held
        have most := inv.full_iff.mp full
        refine ⟨turns, value, [], rfl, rfl, ⟨v, _, pc⟩, ?_⟩
        omega
      · exact (ih.1 (producerStep_refused refused)).snoc (.producer value)

/-- A run knows its drops. -/
theorem pushAccount_run (turns : List (SpscTurn T)) :
    ∃ drops, PushAccount ((SpscState.start : SpscState T capacity).run turns) drops := by
  refine List.foldlRecOn (motive := fun s => ∃ drops, PushAccount s drops) turns SpscState.step
    ⟨0, pushAccount_start⟩ ?_
  rintro s ⟨drops, account⟩ turn _
  cases turn with
  | producer value => exact account.producerStep value
  | consumer => exact ⟨drops, account.consumerStep⟩

/-- The queue answers false exactly where it is full or empty, and every push is
accounted for by the count of drops that the counter holds at its width. -/
theorem spsc_queue_exact (turns : List (SpscTurn T)) :
    let s := (SpscState.start : SpscState T capacity).run turns
    s.popped.length ≤ s.accepted.length ∧
      s.accepted.length ≤ s.popped.length + (capacity - 1) ∧
      (s.producer = .return false → FullAtLoad capacity turns 1) ∧
      (s.popResult = some none → s.popped.length = s.accepted.length) ∧
      ∃ drops unreturned, s.ring.dropped = drops % 2 ^ 64 ∧ unreturned ≤ 1 ∧
        drops + s.accepted.length = s.completedPushes + unreturned := by
  intro s
  have inv : SpscInv s := spscInv_start.run turns
  have room := inv.room
  obtain ⟨drops, account⟩ : ∃ drops, PushAccount s drops := pushAccount_run turns
  refine ⟨inv.order, by omega, (fullAtLoad_of_refused turns).2, ?_, drops, _, account.counter, ?_,
    account.total⟩
  · exact fun empty => (consumerStep_empty inv empty).2.2
  · unfold ProducerPc.counted
    split <;> omega

theorem spsc_queue_exact_wrap :
    ((SpscState.start : SpscState Nat 2).run wrapTurns).popped.length ≤
        ((SpscState.start : SpscState Nat 2).run wrapTurns).accepted.length ∧
      ((SpscState.start : SpscState Nat 2).run wrapTurns).accepted.length ≤
        ((SpscState.start : SpscState Nat 2).run wrapTurns).popped.length + (2 - 1) :=
  ⟨(spsc_queue_exact wrapTurns).1, (spsc_queue_exact wrapTurns).2.1⟩

end Answers

section Wrapped

/-- The queue after that many more drops. -/
def SpscState.refused (s : SpscState T capacity) (calls : Nat) : SpscState T capacity :=
  { s with
    ring := { s.ring with dropped := (s.ring.dropped + calls) % 2 ^ 64 }
    completedPushes := s.completedPushes + calls }

theorem run_refusal {s : SpscState T capacity} (idle : s.producer = .idle)
    (full : increment s.ring.head = s.ring.tail) (value : T) :
    s.run (List.replicate 4 (.producer value)) = s.refused 1 := by
  obtain ⟨ring, producer, consumer, accepted, popped, completedPushes⟩ := s
  obtain rfl : producer = .idle := idle
  have load : SpscState.producerStep
      ⟨ring, .loadTail value ring.head, consumer, accepted, popped, completedPushes⟩ value =
        ⟨ring, .drop, consumer, accepted, popped, completedPushes⟩ := if_pos full
  show ((SpscState.producerStep ⟨ring, .loadTail value ring.head, consumer, accepted, popped,
    completedPushes⟩ value).producerStep value).producerStep value = _
  rw [load]
  rfl

/-- On a full queue that nobody reads, every call is a drop. -/
theorem run_refusals {s : SpscState T capacity} (idle : s.producer = .idle)
    (full : increment s.ring.head = s.ring.tail) (fits : s.ring.dropped < 2 ^ 64) (value : T)
    (calls : Nat) :
    s.run (List.replicate (4 * calls) (.producer value)) = s.refused calls := by
  induction calls with
  | zero =>
    have same : (s.ring.dropped + 0) % 2 ^ 64 = s.ring.dropped := Nat.mod_eq_of_lt fits
    rw [SpscState.refused, same]
    rfl
  | succ calls ih =>
    have next := run_refusal (s := s.refused calls) idle full value
    have count : ((s.ring.dropped + calls) % 2 ^ 64 + 1) % 2 ^ 64 =
        (s.ring.dropped + (calls + 1)) % 2 ^ 64 := Nat.mod_add_mod _ _ _
    rw [Nat.mul_succ, ← List.replicate_append_replicate, SpscState.run, List.foldl_append]
    refine (congrArg (fun s => SpscState.run s _) ih).trans (next.trans ?_)
    simp only [SpscState.refused, count, Nat.add_assoc]

theorem run_push {s : SpscState T capacity} (idle : s.producer = .idle)
    (room : ¬increment s.ring.head = s.ring.tail) (value : T) :
    s.run (List.replicate 5 (.producer value)) =
      { s with
        ring := { s.ring with
          slots := Function.update s.ring.slots s.ring.head value
          head := increment s.ring.head }
        accepted := s.accepted ++ [value]
        completedPushes := s.completedPushes + 1 } := by
  obtain ⟨ring, producer, consumer, accepted, popped, completedPushes⟩ := s
  obtain rfl : producer = .idle := idle
  have load : SpscState.producerStep
      ⟨ring, .loadTail value ring.head, consumer, accepted, popped, completedPushes⟩ value =
        ⟨ring, .writeSlot value ring.head, consumer, accepted, popped, completedPushes⟩ :=
    if_neg room
  show (((SpscState.producerStep ⟨ring, .loadTail value ring.head, consumer, accepted, popped,
    completedPushes⟩ value).producerStep value).producerStep value).producerStep value = _
  rw [load]
  rfl

/-- On an empty queue that nobody reads, the first calls are accepted. -/
theorem run_pushes [Inhabited T] (value : T) {calls : Nat} (fits : calls < capacity) :
    let s := (SpscState.start : SpscState T capacity).run
      (List.replicate (5 * calls) (.producer value))
    s.producer = .idle ∧ s.consumer = .idle ∧ s.popped = [] ∧ s.accepted.length = calls ∧
      s.ring.dropped = 0 ∧ s.completedPushes = calls := by
  induction calls with
  | zero => exact ⟨rfl, rfl, rfl, rfl, rfl, rfl⟩
  | succ calls ih =>
    obtain ⟨idle, quiet, popped, accepted, dropped, completed⟩ := ih (by omega)
    have inv : SpscInv ((SpscState.start : SpscState T capacity).run
      (List.replicate (5 * calls) (.producer value))) := spscInv_start.run _
    have room := mt inv.full_iff.mp (by rw [accepted, popped, List.length_nil]; omega)
    have next : (SpscState.start : SpscState T capacity).run
        (List.replicate (5 * (calls + 1)) (.producer value)) =
        ((SpscState.start : SpscState T capacity).run
          (List.replicate (5 * calls) (.producer value))).run
          (List.replicate 5 (.producer value)) := by
      rw [Nat.mul_succ, ← List.replicate_append_replicate, SpscState.run, List.foldl_append]
      rfl
    simp only [next, run_push idle room, List.length_append, accepted]
    exact ⟨idle, quiet, popped, rfl, dropped, congrArg (· + 1) completed⟩

/-- One push into a queue of capacity two that nobody reads, and then so many more. -/
def refusedTurns (calls : Nat) : List (SpscTurn Nat) :=
  List.replicate 5 (.producer 1) ++ List.replicate (4 * calls) (.producer 1)

/-- After `2 ^ 64` drops the counter stands at zero again, and as many pushes are
neither accepted nor counted. -/
theorem spsc_drops_wrap :
    ((SpscState.start : SpscState Nat 2).run (refusedTurns (2 ^ 64))).producer = .idle ∧
      ((SpscState.start : SpscState Nat 2).run (refusedTurns (2 ^ 64))).ring.dropped +
        ((SpscState.start : SpscState Nat 2).run (refusedTurns (2 ^ 64))).accepted.length = 1 ∧
      ((SpscState.start : SpscState Nat 2).run (refusedTurns (2 ^ 64))).completedPushes =
        1 + 2 ^ 64 := by
  have first : (SpscState.start : SpscState Nat 2).run (List.replicate 5 (.producer 1)) =
      ⟨⟨Function.update (fun _ => 0) 0 1, 1, 0, 0⟩, .idle, .idle, [1], [], 1⟩ := rfl
  have rest : (SpscState.start : SpscState Nat 2).run (refusedTurns (2 ^ 64)) = SpscState.refused
      ⟨⟨Function.update (fun _ => 0) 0 1, 1, 0, 0⟩, .idle, .idle, [1], [], 1⟩ (2 ^ 64) := by
    rw [refusedTurns, SpscState.run, List.foldl_append]
    refine (congrArg (fun s => SpscState.run s _) first).trans ?_
    exact run_refusals rfl rfl (Nat.two_pow_pos 64) 1 (2 ^ 64)
  rw [rest]
  refine ⟨rfl, ?_, rfl⟩
  have none : (0 + 2 ^ 64) % 2 ^ 64 = 0 := by rw [Nat.zero_add, Nat.mod_self]
  simp only [SpscState.refused, none, List.length_singleton]

end Wrapped

end NeuroKinetic
