import NeuroKinetic.RingBuffer
import Mathlib.Tactic.Common

open RingIndex

namespace NeuroKinetic

variable {T : Type} {capacity : Nat}

/-- The locals of a `try_push` still fit the queue. -/
def ProducerHeld (ring : SpscRingBuffer T capacity) (accepted popped : List T) :
    ProducerPc T capacity → Prop
  | .loadTail _ head => head = ring.head
  | .writeSlot _ head => head = ring.head ∧ accepted.length + 1 < popped.length + capacity
  | .storeHead value head =>
    head = ring.head ∧ accepted.length + 1 < popped.length + capacity ∧ ring.slots head = value
  | _ => True

def ConsumerHeld (ring : SpscRingBuffer T capacity) (accepted popped : List T) :
    ConsumerPc T capacity → Prop
  | .idle => True
  | .loadHead tail => tail = ring.tail
  | .readSlot tail => tail = ring.tail ∧ popped.length < accepted.length
  | .storeTail tail value => tail = ring.tail ∧ accepted[popped.length]? = some value

theorem ConsumerHeld.push {ring ring' : SpscRingBuffer T capacity} {accepted popped : List T}
    {pc : ConsumerPc T capacity} (h : ConsumerHeld ring accepted popped pc)
    (tail : ring'.tail = ring.tail) (value : T) :
    ConsumerHeld ring' (accepted ++ [value]) popped pc := by
  cases pc with
  | idle => trivial
  | loadHead t => exact h.trans tail.symm
  | readSlot t =>
    refine ⟨h.1.trans tail.symm, ?_⟩
    rw [List.length_append]
    exact Nat.lt_add_right _ h.2
  | storeTail t v =>
    refine ⟨h.1.trans tail.symm, ?_⟩
    obtain ⟨inside, _⟩ := List.getElem?_eq_some_iff.mp h.2
    rw [List.getElem?_append_left inside]
    exact h.2

theorem ProducerHeld.pop {ring ring' : SpscRingBuffer T capacity} {accepted popped : List T}
    {pc : ProducerPc T capacity} (h : ProducerHeld ring accepted popped pc)
    (head : ring'.head = ring.head) (slots : ring'.slots = ring.slots) (value : T) :
    ProducerHeld ring' accepted (popped ++ [value]) pc := by
  have longer : (popped ++ [value]).length = popped.length + 1 := by simp
  cases pc with
  | loadTail v t => exact h.trans head.symm
  | writeSlot v t => exact ⟨h.1.trans head.symm, by have := h.2; omega⟩
  | storeHead v t =>
    exact ⟨h.1.trans head.symm, by have := h.2.1; omega, by rw [slots]; exact h.2.2⟩
  | idle => trivial
  | drop => trivial
  | «return» result => trivial

theorem prefix_snoc {popped accepted : List T} {value : T} (h : popped <+: accepted)
    (next : accepted[popped.length]? = some value) : popped ++ [value] <+: accepted := by
  obtain ⟨rest, rfl⟩ := h
  rw [List.getElem?_append_right le_rfl, Nat.sub_self] at next
  cases rest with
  | nil => simp at next
  | cons first rest =>
    obtain rfl : first = value := by simpa using next
    exact ⟨rest, by simp⟩

variable [NeZero capacity]

/-- Both indices count what passed them, and what lies between is in its slots. -/
structure SpscInv (s : SpscState T capacity) : Prop where
  head : s.ring.head = slot capacity s.accepted.length
  tail : s.ring.tail = slot capacity s.popped.length
  fifo : s.popped <+: s.accepted
  room : s.accepted.length < s.popped.length + capacity
  live : ∀ k, s.popped.length ≤ k → ∀ h : k < s.accepted.length,
    s.ring.slots (slot capacity k) = s.accepted[k]
  producer : ProducerHeld s.ring s.accepted s.popped s.producer
  consumer : ConsumerHeld s.ring s.accepted s.popped s.consumer

theorem spscInv_start [Inhabited T] : SpscInv (SpscState.start : SpscState T capacity) := by
  refine ⟨rfl, rfl, List.prefix_refl _, ?_, fun k _ h => absurd h (Nat.not_lt_zero k), trivial, trivial⟩
  exact Nat.pos_of_neZero _

theorem SpscInv.order {s : SpscState T capacity} (h : SpscInv s) :
    s.popped.length ≤ s.accepted.length := h.fifo.length_le

/-- The load of the tail finds the queue full exactly at `capacity - 1` elements. -/
theorem SpscInv.full_iff {s : SpscState T capacity} (h : SpscInv s) :
    increment s.ring.head = s.ring.tail ↔ s.accepted.length + 1 = s.popped.length + capacity := by
  have order := h.order
  have room := h.room
  rw [h.head, h.tail, increment_slot, eq_comm, slot_round (by omega) (by omega) (by omega)]

theorem SpscInv.empty_iff {s : SpscState T capacity} (h : SpscInv s) :
    s.ring.tail = s.ring.head ↔ s.popped.length = s.accepted.length := by
  rw [h.head, h.tail, slot_inj h.order h.room]

theorem SpscInv.head_not_live {s : SpscState T capacity} (h : SpscInv s) {k : Nat}
    (low : s.popped.length ≤ k) (high : k < s.accepted.length) :
    s.ring.head ≠ slot capacity k := by
  have room := h.room
  rw [h.head]
  intro same
  have := (slot_inj (by omega) (by omega)).mp same.symm
  omega

theorem SpscInv.producerStep {s : SpscState T capacity} (h : SpscInv s) (value : T) :
    SpscInv (s.producerStep value) := by
  have held := h.producer
  unfold SpscState.producerStep
  split
  next => exact { h with producer := rfl }
  next value head pc =>
    rw [pc] at held
    split
    next => exact { h with producer := trivial }
    next notFull =>
      have free : increment s.ring.head ≠ s.ring.tail := by rwa [← show head = s.ring.head from held]
      have space : s.accepted.length + 1 < s.popped.length + capacity := by
        have room := h.room
        have := mt h.full_iff.mpr free
        omega
      exact { h with producer := ⟨held, space⟩ }
  next => exact { h with producer := trivial, consumer := h.consumer }
  next value head pc =>
    rw [pc] at held
    obtain ⟨rfl, space⟩ := held
    have live : ∀ k, s.popped.length ≤ k → ∀ high : k < s.accepted.length,
        Function.update s.ring.slots s.ring.head value (slot capacity k) = s.accepted[k] := by
      intro k low high
      rw [Function.update_of_ne (h.head_not_live low high).symm]
      exact h.live k low high
    exact { h with
      live := live
      producer := ⟨rfl, space, Function.update_self _ _ _⟩
      consumer := h.consumer }
  next value head pc =>
    rw [pc] at held
    obtain ⟨rfl, space, stored⟩ := held
    have longer : (s.accepted ++ [value]).length = s.accepted.length + 1 := by simp
    have room : (s.accepted ++ [value]).length < s.popped.length + capacity := by omega
    have live : ∀ k, s.popped.length ≤ k → ∀ high : k < (s.accepted ++ [value]).length,
        s.ring.slots (slot capacity k) = (s.accepted ++ [value])[k] := by
      intro k low high
      by_cases old : k < s.accepted.length
      · rw [List.getElem_append_left old]
        exact h.live k low old
      · obtain rfl : k = s.accepted.length := by omega
        rw [List.getElem_concat_length rfl, ← h.head]
        exact stored
    refine ⟨?_, h.tail, h.fifo.trans (List.prefix_append _ _), room, live, trivial,
      h.consumer.push rfl value⟩
    rw [h.head, increment_slot, longer]
  next => exact { h with producer := trivial }

theorem SpscInv.consumerStep {s : SpscState T capacity} (h : SpscInv s) :
    SpscInv s.consumerStep := by
  have held := h.consumer
  unfold SpscState.consumerStep
  split
  next => exact { h with consumer := rfl }
  next tail pc =>
    rw [pc] at held
    split
    next => exact { h with consumer := trivial }
    next notEmpty =>
      have some : s.ring.tail ≠ s.ring.head := by rwa [← show tail = s.ring.tail from held]
      have nonempty : s.popped.length < s.accepted.length := by
        have order := h.order
        have := mt h.empty_iff.mpr some
        omega
      exact { h with consumer := ⟨held, nonempty⟩ }
  next tail pc =>
    rw [pc] at held
    obtain ⟨rfl, nonempty⟩ := held
    refine { h with consumer := ⟨rfl, ?_⟩ }
    rw [h.tail, h.live _ le_rfl nonempty]
    exact List.getElem?_eq_getElem nonempty
  next tail value pc =>
    rw [pc] at held
    obtain ⟨rfl, next⟩ := held
    have longer : (s.popped ++ [value]).length = s.popped.length + 1 := by simp
    have room : s.accepted.length < (s.popped ++ [value]).length + capacity := by
      have := h.room
      omega
    have live : ∀ k, (s.popped ++ [value]).length ≤ k → ∀ high : k < s.accepted.length,
        s.ring.slots (slot capacity k) = s.accepted[k] :=
      fun k low high => h.live k (by omega) high
    refine ⟨h.head, ?_, prefix_snoc h.fifo next, room, live, h.producer.pop rfl rfl value, trivial⟩
    rw [h.tail, increment_slot, longer]

theorem SpscInv.run {s : SpscState T capacity} (h : SpscInv s) (turns : List (SpscTurn T)) :
    SpscInv (s.run turns) := by
  refine List.foldlRecOn turns SpscState.step h fun s inv turn _ => ?_
  cases turn with
  | producer value => exact inv.producerStep value
  | consumer => exact inv.consumerStep

/-- FIFO safety: what was popped is a prefix of what was pushed, and the slot a
producer is about to write holds nothing that is still wanted. -/
theorem spsc_fifo_safety [Inhabited T] (turns : List (SpscTurn T)) :
    let s := (SpscState.start : SpscState T capacity).run turns
    s.popped <+: s.accepted ∧
      (∀ k, s.popped.length ≤ k → ∀ h : k < s.accepted.length,
        s.ring.slots (slot capacity k) = s.accepted[k]) ∧
      ∀ value head, s.producer = .writeSlot value head →
        (∀ k, s.popped.length ≤ k → k < s.accepted.length → head ≠ slot capacity k) ∧
        ∀ tail, s.consumer = .readSlot tail → head ≠ tail := by
  intro s
  have inv : SpscInv s := spscInv_start.run turns
  refine ⟨inv.fifo, inv.live, fun value head writing => ?_⟩
  have held := inv.producer
  rw [writing] at held
  obtain ⟨rfl, _⟩ := held
  refine ⟨fun k low high => inv.head_not_live low high, fun tail reading => ?_⟩
  have reader := inv.consumer
  rw [reading] at reader
  obtain ⟨rfl, nonempty⟩ := reader
  rw [inv.tail]
  exact inv.head_not_live le_rfl nonempty

/-- Two pushes around a pop, in a queue of capacity two: the slots wrap. -/
def wrapTurns : List (SpscTurn Nat) :=
  List.replicate 5 (.producer 1) ++ List.replicate 4 .consumer ++ List.replicate 5 (.producer 2)

theorem spsc_fifo_safety_wrap :
    ((SpscState.start : SpscState Nat 2).run wrapTurns).popped <+:
      ((SpscState.start : SpscState Nat 2).run wrapTurns).accepted :=
  (spsc_fifo_safety wrapTurns).1

end NeuroKinetic
