import NeuroKinetic.RingBufferFifo

open RingIndex

namespace NeuroKinetic

variable {T : Type} {capacity : Nat}

/-- A push that is counted as accepted or dropped but has not returned yet. -/
def ProducerPc.counted : ProducerPc T capacity → Nat
  | .return _ => 1
  | _ => 0

/-- Every push is accepted or dropped; the drop counter is the number of drops
at its width. -/
structure PushAccount (s : SpscState T capacity) (drops : Nat) : Prop where
  counter : s.ring.dropped = drops % 2 ^ 64
  total : drops + s.accepted.length = s.completedPushes + s.producer.counted

/-- What `try_pop` returns with its next action, where that is its last. -/
def SpscState.popResult (s : SpscState T capacity) : Option (Option T) :=
  match s.consumer with
  | .loadHead tail => if tail = s.ring.head then some none else none
  | .storeTail _ value => some (some value)
  | _ => none

variable [NeZero capacity]

/-- Elements between the two indices. -/
def SpscRingBuffer.queued (ring : SpscRingBuffer T capacity) : Nat := (ring.head - ring.tail).val

theorem SpscInv.queued_add {s : SpscState T capacity} (h : SpscInv s) :
    s.popped.length + s.ring.queued = s.accepted.length := by
  rw [SpscRingBuffer.queued, h.head, h.tail, slot_sub h.order h.room]
  exact Nat.add_sub_of_le h.order

section Producer

theorem producerStep_consumer (s : SpscState T capacity) (value : T) :
    (s.producerStep value).consumer = s.consumer ∧ (s.producerStep value).popped = s.popped := by
  unfold SpscState.producerStep
  split <;> try exact ⟨rfl, rfl⟩
  split <;> exact ⟨rfl, rfl⟩

theorem pushAccount_start [Inhabited T] : PushAccount (SpscState.start : SpscState T capacity) 0 :=
  ⟨rfl, rfl⟩

theorem PushAccount.producerStep {s : SpscState T capacity} {drops : Nat}
    (h : PushAccount s drops) (value : T) :
    ∃ drops', PushAccount (s.producerStep value) drops' := by
  have total := h.total
  unfold SpscState.producerStep
  split
  next pc => exact ⟨drops, h.counter, by simpa [pc, ProducerPc.counted] using total⟩
  next value head pc =>
    split <;> exact ⟨drops, h.counter, by simpa [pc, ProducerPc.counted] using total⟩
  next pc =>
    refine ⟨drops + 1, ?_, ?_⟩
    · rw [h.counter, Nat.mod_add_mod]
    · simp only [pc, ProducerPc.counted] at total ⊢
      omega
  next value head pc => exact ⟨drops, h.counter, by simpa [pc, ProducerPc.counted] using total⟩
  next value head pc =>
    refine ⟨drops, h.counter, ?_⟩
    simp only [pc, ProducerPc.counted, List.length_append, List.length_singleton] at total ⊢
    omega
  next result pc => exact ⟨drops, h.counter, by simpa [pc, ProducerPc.counted] using total⟩

end Producer

section Consumer

theorem consumerStep_producer (s : SpscState T capacity) :
    s.consumerStep.producer = s.producer ∧ s.consumerStep.accepted = s.accepted := by
  unfold SpscState.consumerStep
  split <;> try exact ⟨rfl, rfl⟩
  split <;> exact ⟨rfl, rfl⟩

theorem PushAccount.consumerStep {s : SpscState T capacity} {drops : Nat}
    (h : PushAccount s drops) : PushAccount s.consumerStep drops := by
  unfold SpscState.consumerStep
  split <;> try exact ⟨h.counter, h.total⟩
  split <;> exact ⟨h.counter, h.total⟩

theorem consumerStep_pending {s : SpscState T capacity} (h : s.popResult = none) :
    s.consumerStep.popped = s.popped := by
  unfold SpscState.popResult at h
  unfold SpscState.consumerStep
  split <;> try rfl
  next => split <;> rfl
  next tail value pc =>
    rw [pc] at h
    cases h

/-- `try_pop` gives up only on a queue that is empty at its load of the head. -/
theorem consumerStep_empty {s : SpscState T capacity} (inv : SpscInv s)
    (h : s.popResult = some none) :
    s.consumerStep.consumer = .idle ∧ s.consumerStep.popped = s.popped ∧
      s.popped.length = s.accepted.length := by
  have held := inv.consumer
  unfold SpscState.popResult at h
  unfold SpscState.consumerStep
  split <;> rename_i pc <;> simp only [pc, reduceCtorEq] at h
  next tail =>
    split at h
    next empty =>
      rw [pc] at held
      refine ⟨by rw [if_pos empty], by rw [if_pos empty], inv.empty_iff.mp ?_⟩
      rw [← empty]
      exact held.symm
    next => cases h
  next => cases Option.some.inj h

theorem consumerStep_popped {s : SpscState T capacity} {value : T}
    (h : s.popResult = some (some value)) :
    s.consumerStep.consumer = .idle ∧ s.consumerStep.popped = s.popped ++ [value] := by
  unfold SpscState.popResult at h
  unfold SpscState.consumerStep
  split <;> rename_i pc <;> simp only [pc, reduceCtorEq] at h
  next => split at h <;> cases h
  next =>
    cases h
    exact ⟨rfl, rfl⟩

end Consumer

end NeuroKinetic
