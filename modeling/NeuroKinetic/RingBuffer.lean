import NeuroKinetic.Library.RingIndex
import Mathlib.Logic.Function.Basic

namespace NeuroKinetic

structure SpscRingBuffer (T : Type) (capacity : Nat) where
  slots : Fin capacity → T
  head : Fin capacity
  tail : Fin capacity
  dropped : Nat

/-- Where a `try_push` stands, with its locals; named after its next action. -/
inductive ProducerPc (T : Type) (capacity : Nat) where
  | idle
  | loadTail (value : T) (head : Fin capacity)
  | drop
  | writeSlot (value : T) (head : Fin capacity)
  | storeHead (value : T) (head : Fin capacity)
  | return (result : Bool)

inductive ConsumerPc (T : Type) (capacity : Nat) where
  | idle
  | loadHead (tail : Fin capacity)
  | readSlot (tail : Fin capacity)
  | storeTail (tail : Fin capacity) (value : T)

/-- Queue and both sides, with the history of their calls. -/
structure SpscState (T : Type) (capacity : Nat) where
  ring : SpscRingBuffer T capacity
  producer : ProducerPc T capacity
  consumer : ConsumerPc T capacity
  accepted : List T
  popped : List T
  completedPushes : Nat

/-- Whose step comes next; a producer that is idle starts `try_push value`. -/
inductive SpscTurn (T : Type) where
  | producer (value : T)
  | consumer

open RingIndex

variable {T : Type} {capacity : Nat} [NeZero capacity]

def SpscState.start [Inhabited T] : SpscState T capacity where
  ring := ⟨fun _ => default, 0, 0, 0⟩
  producer := .idle
  consumer := .idle
  accepted := []
  popped := []
  completedPushes := 0

def SpscState.producerStep (s : SpscState T capacity) (value : T) : SpscState T capacity :=
  match s.producer with
  | .idle => { s with producer := .loadTail value s.ring.head }
  | .loadTail value head =>
    if increment head = s.ring.tail then { s with producer := .drop }
    else { s with producer := .writeSlot value head }
  | .drop =>
    { s with
      ring := { s.ring with dropped := (s.ring.dropped + 1) % 2 ^ 64 }
      producer := .return false }
  | .writeSlot value head =>
    { s with
      ring := { s.ring with slots := Function.update s.ring.slots head value }
      producer := .storeHead value head }
  | .storeHead value head =>
    { s with
      ring := { s.ring with head := increment head }
      producer := .return true
      accepted := s.accepted ++ [value] }
  | .return _ => { s with producer := .idle, completedPushes := s.completedPushes + 1 }

/-- One atomic action of `try_pop`; the store of the tail is its last. -/
def SpscState.consumerStep (s : SpscState T capacity) : SpscState T capacity :=
  match s.consumer with
  | .idle => { s with consumer := .loadHead s.ring.tail }
  | .loadHead tail =>
    if tail = s.ring.head then { s with consumer := .idle }
    else { s with consumer := .readSlot tail }
  | .readSlot tail => { s with consumer := .storeTail tail (s.ring.slots tail) }
  | .storeTail tail value =>
    { s with
      ring := { s.ring with tail := increment tail }
      consumer := .idle
      popped := s.popped ++ [value] }

def SpscState.step (s : SpscState T capacity) : SpscTurn T → SpscState T capacity
  | .producer value => s.producerStep value
  | .consumer => s.consumerStep

def SpscState.run (s : SpscState T capacity) (turns : List (SpscTurn T)) : SpscState T capacity :=
  turns.foldl SpscState.step s

end NeuroKinetic
