import NeuroKinetic.RingBufferExactness

open RingIndex

namespace NeuroKinetic

/-- Where the owner stands in `start`, in a push or in `stop`. -/
inductive OwnerAt (T : Type) where
  | idle
  | startExchange
  | startSpawn
  | push (value : T)
  | stopExchange
  | stopJoin

/-- Where the thread stands; `draining` tells its second loop from its first, and an
element in its hands still needs the pending actions. -/
inductive ThreadAt (A : Type) where
  | none
  | loadRunning
  | pop (draining : Bool)
  | handle (draining : Bool) (pending : List A)
  | finished

/-- A queue that its owner fills and a thread empties, one action of an element at a
time. -/
structure DrainedQueue (T A S : Type) (capacity : Nat) where
  queue : SpscState T capacity
  running : Bool
  owner : OwnerAt T
  thread : ThreadAt A
  state : S

/-- The calls of the owner; the destructor is a `stop`. -/
inductive QueueCall (T : Type) where
  | start
  | push (value : T)
  | stop

/-- Whose step comes next; an owner that is idle begins the call. -/
inductive QueueTurn (T : Type) where
  | owner (call : QueueCall T)
  | thread

variable {T A S : Type} {capacity : Nat} [NeZero capacity]

section Step

def DrainedQueue.init [Inhabited T] (state : S) : DrainedQueue T A S capacity :=
  ⟨SpscState.start, false, .idle, .none, state⟩

def DrainedQueue.pushStep (s : DrainedQueue T A S capacity) (value : T) :
    DrainedQueue T A S capacity :=
  let owner := match s.queue.producer with
    | .return _ => .idle
    | _ => .push value
  { s with queue := s.queue.producerStep value, owner := owner }

/-- A join waits: it has no step until the thread has finished. -/
def DrainedQueue.ownerStep (s : DrainedQueue T A S capacity) (call : QueueCall T) :
    DrainedQueue T A S capacity :=
  match s.owner with
  | .idle =>
    match call with
    | .start => { s with owner := .startExchange }
    | .push value => s.pushStep value
    | .stop => { s with owner := .stopExchange }
  | .startExchange =>
    if s.running then { s with owner := .idle }
    else { s with running := true, owner := .startSpawn }
  | .startSpawn => { s with thread := .loadRunning, owner := .idle }
  | .push value => s.pushStep value
  | .stopExchange =>
    if s.running then { s with running := false, owner := .stopJoin }
    else { s with owner := .idle }
  | .stopJoin =>
    match s.thread with
    | .finished => { s with thread := .none, owner := .idle }
    | _ => s

variable (actions : T → List A) (apply : S → A → S)

def DrainedQueue.threadStep (s : DrainedQueue T A S capacity) : DrainedQueue T A S capacity :=
  match s.thread with
  | .loadRunning => { s with thread := .pop (!s.running) }
  | .pop draining =>
    let thread := match s.queue.popResult with
      | none => .pop draining
      | some none => if draining then .finished else .loadRunning
      | some (some value) => .handle draining (actions value)
    { s with queue := s.queue.consumerStep, thread := thread }
  | .handle draining (action :: rest) =>
    { s with state := apply s.state action, thread := .handle draining rest }
  | .handle draining [] => { s with thread := if draining then .pop true else .loadRunning }
  | .none | .finished => s

def DrainedQueue.step (s : DrainedQueue T A S capacity) : QueueTurn T → DrainedQueue T A S capacity
  | .owner call => s.ownerStep call
  | .thread => s.threadStep actions apply

def DrainedQueue.run (s : DrainedQueue T A S capacity) (turns : List (QueueTurn T)) :
    DrainedQueue T A S capacity :=
  turns.foldl (DrainedQueue.step actions apply) s

end Step

section Outcomes

/-- What one step of the owner can do. -/
inductive OwnerOutcome (s : DrainedQueue T A S capacity) (call : QueueCall T) :
    DrainedQueue T A S capacity → Prop
  | called (owner : OwnerAt T) (pc : s.owner = .idle) (other : ∀ value, call ≠ .push value)
      (next : owner = .startExchange ∨ owner = .stopExchange) :
      OwnerOutcome s call { s with owner := owner }
  | pushed (value : T) (pc : s.owner = .idle ∧ call = .push value ∨ s.owner = .push value) :
      OwnerOutcome s call (s.pushStep value)
  | returned (pc : s.owner = .startExchange ∧ s.running = true ∨
      s.owner = .stopExchange ∧ s.running = false) : OwnerOutcome s call { s with owner := .idle }
  | raised (pc : s.owner = .startExchange) (off : s.running = false) :
      OwnerOutcome s call { s with running := true, owner := .startSpawn }
  | spawned (pc : s.owner = .startSpawn) :
      OwnerOutcome s call { s with thread := .loadRunning, owner := .idle }
  | cleared (pc : s.owner = .stopExchange) (on : s.running = true) :
      OwnerOutcome s call { s with running := false, owner := .stopJoin }
  | joined (pc : s.owner = .stopJoin) (gone : s.thread = .finished) :
      OwnerOutcome s call { s with thread := .none, owner := .idle }
  | waits (pc : s.owner = .stopJoin) (alive : s.thread ≠ .finished) : OwnerOutcome s call s

theorem ownerStep_outcome (s : DrainedQueue T A S capacity) (call : QueueCall T) :
    OwnerOutcome s call (s.ownerStep call) := by
  unfold DrainedQueue.ownerStep
  split
  next pc =>
    split
    next => exact .called _ pc (by simp) (Or.inl rfl)
    next value => exact .pushed value (Or.inl ⟨pc, rfl⟩)
    next => exact .called _ pc (by simp) (Or.inr rfl)
  next pc =>
    split
    next on => exact .returned (Or.inl ⟨pc, on⟩)
    next off => exact .raised pc (Bool.eq_false_of_not_eq_true off)
  next pc => exact .spawned pc
  next value pc => exact .pushed value (Or.inr pc)
  next pc =>
    split
    next on => exact .cleared pc on
    next off => exact .returned (Or.inr ⟨pc, Bool.eq_false_of_not_eq_true off⟩)
  next pc =>
    split
    next gone => exact .joined pc gone
    next alive => exact .waits pc alive

variable (actions : T → List A) (apply : S → A → S)

/-- What one step of the thread can do. -/
inductive ThreadOutcome (s : DrainedQueue T A S capacity) : DrainedQueue T A S capacity → Prop
  | rests (pc : s.thread = .none ∨ s.thread = .finished) : ThreadOutcome s s
  | loaded (pc : s.thread = .loadRunning) :
      ThreadOutcome s { s with thread := .pop (!s.running) }
  | popping (draining : Bool) (pc : s.thread = .pop draining) (result : s.queue.popResult = none) :
      ThreadOutcome s { s with queue := s.queue.consumerStep }
  | empty (draining : Bool) (pc : s.thread = .pop draining)
      (result : s.queue.popResult = some none) :
      ThreadOutcome s { s with
        queue := s.queue.consumerStep
        thread := if draining then .finished else .loadRunning }
  | taken (draining : Bool) (value : T) (pc : s.thread = .pop draining)
      (result : s.queue.popResult = some (some value)) :
      ThreadOutcome s { s with
        queue := s.queue.consumerStep
        thread := .handle draining (actions value) }
  | acted (draining : Bool) (action : A) (rest : List A)
      (pc : s.thread = .handle draining (action :: rest)) :
      ThreadOutcome s { s with state := apply s.state action, thread := .handle draining rest }
  | handled (draining : Bool) (pc : s.thread = .handle draining []) :
      ThreadOutcome s { s with thread := if draining then .pop true else .loadRunning }

theorem threadStep_outcome (s : DrainedQueue T A S capacity) :
    ThreadOutcome actions apply s (s.threadStep actions apply) := by
  unfold DrainedQueue.threadStep
  split
  next pc => exact .loaded pc
  next draining pc =>
    cases result : s.queue.popResult with
    | none =>
      dsimp only
      rw [← pc]
      exact .popping draining pc result
    | some answer =>
      cases answer with
      | none => exact .empty draining pc result
      | some value => exact .taken draining value pc result
  next draining action rest pc => exact .acted draining action rest pc
  next draining pc => exact .handled draining pc
  next pc => exact .rests (Or.inl pc)
  next pc => exact .rests (Or.inr pc)

/-- What both sides of the queue preserve is true of it in every run. -/
theorem DrainedQueue.queue_run {P : SpscState T capacity → Prop}
    (producer : ∀ queue value, P queue → P (queue.producerStep value))
    (consumer : ∀ queue, P queue → P queue.consumerStep) {s : DrainedQueue T A S capacity}
    (h : P s.queue) (turns : List (QueueTurn T)) : P (s.run actions apply turns).queue := by
  refine List.foldlRecOn (motive := fun s : DrainedQueue T A S capacity => P s.queue) turns _ h ?_
  intro s holds turn _
  cases turn with
  | owner call =>
    have outcome := ownerStep_outcome s call
    show P (s.ownerStep call).queue
    generalize s.ownerStep call = s' at outcome ⊢
    cases outcome with
    | pushed value => exact producer s.queue value holds
    | _ => exact holds
  | thread =>
    have outcome := threadStep_outcome actions apply s
    show P (s.threadStep actions apply).queue
    generalize s.threadStep actions apply = s' at outcome ⊢
    cases outcome with
    | popping | empty | taken => exact consumer s.queue holds
    | _ => exact holds

end Outcomes

end NeuroKinetic
