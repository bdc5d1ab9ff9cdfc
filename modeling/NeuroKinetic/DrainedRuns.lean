import NeuroKinetic.DrainedQueue

open RingIndex

namespace NeuroKinetic

variable {T A S : Type} {capacity : Nat}

section Places

/-- What the element in the thread's hands still needs. -/
def ThreadAt.pending : ThreadAt A → List A
  | .handle _ pending => pending
  | _ => []

/-- A thread in its first loop. -/
def ThreadAt.Looping : ThreadAt A → Prop
  | .loadRunning | .pop false | .handle false _ => True
  | _ => False

def ThreadAt.Popping : ThreadAt A → Prop
  | .pop _ => True
  | _ => False

def OwnerAt.Pushing : OwnerAt T → Prop
  | .push _ => True
  | _ => False

def ThreadSettled (running : Bool) (thread : ThreadAt A) : Prop :=
  (running = true ∧ thread.Looping) ∨ (running = false ∧ thread = .none)

/-- How flag and thread stand while the owner is at a point of its call. -/
def ThreadLifecycle (running : Bool) (thread : ThreadAt A) : OwnerAt T → Prop
  | .startSpawn => running = true ∧ thread = .none
  | .stopJoin => running = false ∧ thread ≠ .none
  | _ => ThreadSettled running thread

variable {running : Bool} {thread : ThreadAt A} {owner : OwnerAt T}

theorem ThreadSettled.not_finished (h : ThreadSettled running thread) : thread ≠ .finished := by
  rintro rfl
  rcases h with ⟨_, looping⟩ | ⟨_, gone⟩
  · exact looping
  · cases gone

/-- A thread outlives the flag only while the owner waits for it. -/
theorem ThreadLifecycle.threadStep {thread' : ThreadAt A} (h : ThreadLifecycle running thread owner)
    (alive : thread ≠ .none) (alive' : thread' ≠ .none)
    (keep : running = true → thread.Looping → thread'.Looping) :
    ThreadLifecycle running thread' owner := by
  have settled : ThreadSettled running thread → ThreadSettled running thread' := by
    rintro (⟨on, looping⟩ | ⟨_, gone⟩)
    · exact Or.inl ⟨on, keep on looping⟩
    · exact absurd gone alive
  cases owner with
  | startSpawn => exact absurd h.2 alive
  | stopJoin => exact ⟨h.1, alive'⟩
  | idle => exact settled h
  | startExchange => exact settled h
  | push value => exact settled h
  | stopExchange => exact settled h

end Places

variable [NeZero capacity] (actions : T → List A) (apply : S → A → S) (start : S)

/-- The state is what the actions of the popped elements make of the first one, up to the
thread's place; a finished thread leaves nothing behind. -/
structure DrainInv (s : DrainedQueue T A S capacity) : Prop where
  queue : SpscInv s.queue
  handled : ∃ done, s.queue.popped.flatMap actions = done ++ s.thread.pending ∧
    s.state = done.foldl apply start
  hands : s.thread.pending = [] ∨
    ∃ before value, s.queue.popped = before ++ [value] ∧ s.thread.pending <:+ actions value
  producer : s.queue.producer = .idle ↔ ¬s.owner.Pushing
  consumer : ¬s.thread.Popping → s.queue.consumer = .idle
  lifecycle : ThreadLifecycle s.running s.thread s.owner
  finished : s.thread = .finished → s.queue.popped.length = s.queue.accepted.length

theorem drainInv_init [Inhabited T] :
    DrainInv actions apply start (DrainedQueue.init start : DrainedQueue T A S capacity) := by
  refine ⟨spscInv_start, ⟨[], rfl, rfl⟩, Or.inl rfl, iff_of_true rfl id, fun _ => rfl,
    Or.inr ⟨rfl, rfl⟩, fun h => ?_⟩
  cases h

variable {actions apply start} {s : DrainedQueue T A S capacity}

section Owner

theorem DrainInv.pushStep (h : DrainInv actions apply start s)
    (settled : ThreadSettled s.running s.thread) (value : T) :
    DrainInv actions apply start (s.pushStep value) := by
  obtain ⟨consumer, popped⟩ := producerStep_consumer s.queue value
  refine ⟨h.queue.producerStep value, ?_, ?_, ?_, ?_, ?_,
    fun gone => absurd gone settled.not_finished⟩
  · show ∃ done, (s.queue.producerStep value).popped.flatMap actions = _ ∧ _
    rw [popped]
    exact h.handled
  · show _ ∨ ∃ before value', (s.queue.producerStep value).popped = _ ∧ _
    rw [popped]
    exact h.hands
  · unfold DrainedQueue.pushStep SpscState.producerStep
    cases s.queue.producer with
    | «return» result => exact iff_of_true rfl id
    | loadTail value head =>
      refine iff_of_false ?_ (not_not.mpr trivial)
      dsimp only
      split <;> simp
    | _ => exact iff_of_false (by simp) (not_not.mpr trivial)
  · show _ → (s.queue.producerStep value).consumer = .idle
    rw [consumer]
    exact h.consumer
  · unfold DrainedQueue.pushStep
    cases s.queue.producer <;> exact settled

/-- A step of the owner outside of a push that leaves the thread alone. -/
theorem DrainInv.ownerMoved {running' : Bool} {owner' : OwnerAt T}
    (h : DrainInv actions apply start s) (outside : ¬s.owner.Pushing)
    (outside' : ¬owner'.Pushing) (lifecycle : ThreadLifecycle running' s.thread owner') :
    DrainInv actions apply start { s with running := running', owner := owner' } :=
  { h with
    producer := iff_of_true (h.producer.mpr outside) outside'
    lifecycle := lifecycle }

/-- The owner creates a thread or lets go of one: neither holds an element. -/
theorem DrainInv.replaced {thread' : ThreadAt A} {owner' : OwnerAt T}
    (h : DrainInv actions apply start s) (outside : ¬s.owner.Pushing) (outside' : ¬owner'.Pushing)
    (before : s.thread.pending = []) (away : ¬s.thread.Popping) (after : thread'.pending = [])
    (unfinished : thread' ≠ .finished) (lifecycle : ThreadLifecycle s.running thread' owner') :
    DrainInv actions apply start { s with thread := thread', owner := owner' } :=
  { h with
    handled := by rw [after, ← before]; exact h.handled
    hands := Or.inl after
    producer := iff_of_true (h.producer.mpr outside) outside'
    consumer := fun _ => h.consumer away
    lifecycle := lifecycle
    finished := fun gone => absurd gone unfinished }

theorem DrainInv.ownerStep (h : DrainInv actions apply start s) (call : QueueCall T) :
    DrainInv actions apply start (s.ownerStep call) := by
  have lifecycle := h.lifecycle
  have outcome := ownerStep_outcome s call
  generalize s.ownerStep call = s' at outcome ⊢
  cases outcome with
  | called owner pc _ next =>
    rw [pc] at lifecycle
    rcases next with rfl | rfl <;> exact h.ownerMoved (by rw [pc]; exact id) id lifecycle
  | pushed value pc =>
    refine h.pushStep ?_ value
    rcases pc with ⟨pc, _⟩ | pc <;> rwa [pc] at lifecycle
  | returned pc =>
    rcases pc with ⟨pc, _⟩ | ⟨pc, _⟩ <;> rw [pc] at lifecycle <;>
      exact h.ownerMoved (by rw [pc]; exact id) id lifecycle
  | raised pc off =>
    rw [pc] at lifecycle
    refine h.ownerMoved (by rw [pc]; exact id) id ⟨rfl, ?_⟩
    rcases lifecycle with ⟨on, _⟩ | ⟨_, gone⟩
    · rw [off] at on
      cases on
    · exact gone
  | spawned pc =>
    rw [pc] at lifecycle
    obtain ⟨on, none⟩ := lifecycle
    refine h.replaced (by rw [pc]; exact id) id ?_ ?_ rfl (by simp) (Or.inl ⟨on, trivial⟩)
    · rw [none]
      rfl
    · rw [none]
      exact id
  | cleared pc on =>
    rw [pc] at lifecycle
    refine h.ownerMoved (by rw [pc]; exact id) id ⟨rfl, fun gone => ?_⟩
    rcases lifecycle with ⟨_, looping⟩ | ⟨off, _⟩
    · rw [gone] at looping
      exact looping
    · rw [on] at off
      cases off
  | joined pc gone =>
    rw [pc] at lifecycle
    refine h.replaced (by rw [pc]; exact id) id ?_ ?_ rfl (by simp) (Or.inr ⟨lifecycle.1, rfl⟩)
    · rw [gone]
      rfl
    · rw [gone]
      exact id
  | waits => exact h

end Owner

section Thread

theorem looping_pop {draining : Bool} (h : (.pop draining : ThreadAt A).Looping) :
    draining = false := by
  cases draining with
  | false => rfl
  | true => exact h.elim

theorem looping_handle {draining : Bool} {pending : List A}
    (h : (.handle draining pending : ThreadAt A).Looping) : draining = false := by
  cases draining with
  | false => rfl
  | true => exact h.elim

/-- A step of the thread outside of a pop. -/
theorem DrainInv.threadMoved {thread' : ThreadAt A} {state' : S}
    (h : DrainInv actions apply start s) (alive : s.thread ≠ .none) (away : ¬s.thread.Popping)
    (alive' : thread' ≠ .none) (unfinished : thread' ≠ .finished)
    (handled : ∃ done, s.queue.popped.flatMap actions = done ++ thread'.pending ∧
      state' = done.foldl apply start)
    (hands : thread'.pending = [] ∨
      ∃ before value, s.queue.popped = before ++ [value] ∧ thread'.pending <:+ actions value)
    (keep : s.running = true → s.thread.Looping → thread'.Looping) :
    DrainInv actions apply start { s with thread := thread', state := state' } :=
  { h with
    handled := handled
    hands := hands
    consumer := fun _ => h.consumer away
    lifecycle := h.lifecycle.threadStep alive alive' keep
    finished := fun gone => absurd gone unfinished }

theorem DrainInv.threadStep (h : DrainInv actions apply start s) :
    DrainInv actions apply start (s.threadStep actions apply) := by
  obtain ⟨done, popped, state⟩ := h.handled
  obtain ⟨producer, accepted⟩ := consumerStep_producer s.queue
  have quiet : s.queue.consumerStep.producer = .idle ↔ ¬s.owner.Pushing := by
    rw [producer]
    exact h.producer
  have outcome := threadStep_outcome actions apply s
  generalize s.threadStep actions apply = s' at outcome ⊢
  cases outcome with
  | rests => exact h
  | loaded pc =>
    refine h.threadMoved (by simp [pc]) (by simp [pc, ThreadAt.Popping]) (by simp) (by simp)
      ⟨done, by rwa [pc] at popped, state⟩ (Or.inl rfl) fun on _ => ?_
    rw [on]
    trivial
  | popping draining pc result =>
    have kept := consumerStep_pending result
    refine ⟨h.queue.consumerStep, ⟨done, by rwa [kept], state⟩, Or.inl (by rw [pc]; rfl), quiet,
      fun away => ?_, h.lifecycle, fun gone => ?_⟩
    · rw [pc] at away
      exact absurd trivial away
    · rw [pc] at gone
      cases gone
  | empty draining pc result =>
    obtain ⟨idle, kept, all⟩ := consumerStep_empty h.queue result
    rw [pc] at popped
    refine ⟨h.queue.consumerStep, ⟨done, ?_, state⟩, Or.inl ?_, quiet, fun _ => idle, ?_,
      fun _ => ?_⟩
    · rw [kept, popped]
      cases draining <;> rfl
    · cases draining <;> rfl
    · refine h.lifecycle.threadStep (by simp [pc]) (by cases draining <;> simp) fun _ loop => ?_
      rw [pc] at loop
      rw [looping_pop loop]
      trivial
    · rw [kept, accepted]
      exact all
  | taken draining value pc result =>
    obtain ⟨idle, taken⟩ := consumerStep_popped result
    rw [pc] at popped
    refine ⟨h.queue.consumerStep, ⟨done, ?_, state⟩,
      Or.inr ⟨_, value, taken, List.suffix_refl _⟩, quiet, fun _ => idle, ?_, fun gone => ?_⟩
    · rw [taken, List.flatMap_append, popped]
      simp [ThreadAt.pending]
    · refine h.lifecycle.threadStep (by simp [pc]) (by simp) fun _ loop => ?_
      rw [pc] at loop
      rw [looping_pop loop]
      trivial
    · cases gone
  | acted draining action rest pc =>
    rw [pc] at popped
    refine h.threadMoved (by simp [pc]) (by simp [pc, ThreadAt.Popping]) (by simp) (by simp)
      ⟨done ++ [action], ?_, ?_⟩ (Or.inr ?_) fun _ loop => ?_
    · rw [popped]
      exact List.append_cons done action rest
    · rw [state, List.foldl_append]
      rfl
    · have held := h.hands
      rw [pc] at held
      rcases held with none | ⟨before, value, last, part⟩
      · cases none
      · exact ⟨before, value, last, (List.suffix_cons action rest).trans part⟩
    · rw [pc] at loop
      rw [looping_handle loop]
      trivial
  | handled draining pc =>
    rw [pc] at popped
    refine h.threadMoved (by simp [pc]) (by simp [pc, ThreadAt.Popping])
      (by cases draining <;> simp) (by cases draining <;> simp) ⟨done, ?_, state⟩ (Or.inl ?_)
      fun _ loop => ?_
    · rw [popped]
      cases draining <;> rfl
    · cases draining <;> rfl
    · rw [pc] at loop
      rw [looping_handle loop]
      trivial

theorem DrainInv.step (h : DrainInv actions apply start s) (turn : QueueTurn T) :
    DrainInv actions apply start (s.step actions apply turn) := by
  cases turn with
  | owner call => exact h.ownerStep call
  | thread => exact h.threadStep

theorem DrainInv.run (h : DrainInv actions apply start s) (turns : List (QueueTurn T)) :
    DrainInv actions apply start (s.run actions apply turns) := by
  exact List.foldlRecOn turns _ h fun s inv turn _ => inv.step turn

/-- Every popped element but one at most has been handled whole. -/
theorem DrainInv.in_hand (h : DrainInv actions apply start s) :
    ∃ whole inHand made, s.queue.popped = whole ++ inHand ∧ inHand.length ≤ 1 ∧
      made ++ s.thread.pending = inHand.flatMap actions ∧
      s.state = (whole.flatMap actions ++ made).foldl apply start := by
  obtain ⟨done, popped, state⟩ := h.handled
  rcases h.hands with none | ⟨before, value, last, made, eq⟩
  · rw [none, List.append_nil] at popped
    refine ⟨s.queue.popped, [], [], (List.append_nil _).symm, Nat.zero_le 1, by rw [none]; rfl, ?_⟩
    rw [popped, List.append_nil]
    exact state
  · have single : [value].flatMap actions = actions value := by simp
    rw [last, List.flatMap_append, single, ← eq, ← List.append_assoc] at popped
    refine ⟨before, [value], made, last, le_rfl, by rw [single]; exact eq, ?_⟩
    rw [List.append_cancel_right popped]
    exact state

end Thread

section Begun

/-- The element of a push that is not stored and not dropped yet. -/
def ProducerPc.inFlight : ProducerPc T capacity → List T
  | .loadTail value _ | .writeSlot value _ | .storeHead value _ => [value]
  | _ => []

/-- The element of the push that the turn begins. -/
def DrainedQueue.begins (s : DrainedQueue T A S capacity) : QueueTurn T → List T
  | .owner (.push value) =>
    match s.owner with
    | .idle => [value]
    | _ => []
  | _ => []

variable (actions apply) in
/-- The elements of the pushes that the turns begin, in order. -/
def DrainedQueue.begun (s : DrainedQueue T A S capacity) : List (QueueTurn T) → List T
  | [] => []
  | turn :: rest => s.begins turn ++ DrainedQueue.begun (s.step actions apply turn) rest

theorem DrainedQueue.begun_append (s : DrainedQueue T A S capacity) (turns later : List (QueueTurn T)) :
    s.begun actions apply (turns ++ later) =
      s.begun actions apply turns ++ (s.run actions apply turns).begun actions apply later := by
  induction turns generalizing s with
  | nil => rfl
  | cons turn rest ih =>
    rw [List.cons_append, DrainedQueue.begun, ih, DrainedQueue.begun, List.append_assoc]
    rfl

/-- The thread begins no push. -/
theorem DrainedQueue.begun_threads (s : DrainedQueue T A S capacity) (n : Nat) :
    s.begun actions apply (List.replicate n .thread) = [] := by
  induction n generalizing s with
  | zero => rfl
  | succ n ih => exact ih _

/-- What the queue has taken over and what is on its way to it. -/
def SpscState.offered (s : SpscState T capacity) : List T := s.accepted ++ s.producer.inFlight

theorem producerStep_begins {s : SpscState T capacity} (idle : s.producer = .idle) (value : T) :
    (s.producerStep value).offered = s.offered ++ [value] := by
  simp only [SpscState.offered, SpscState.producerStep, idle, ProducerPc.inFlight, List.append_nil]

theorem producerStep_offered {s : SpscState T capacity} (busy : s.producer ≠ .idle) (value : T) :
    (s.producerStep value).offered.Sublist s.offered := by
  unfold SpscState.offered SpscState.producerStep
  cases pc : s.producer with
  | idle => exact absurd pc busy
  | loadTail v head =>
    dsimp only
    split
    next => exact (List.Sublist.refl _).append (List.nil_sublist _)
    next => exact List.Sublist.refl _
  | storeHead v head => simp [ProducerPc.inFlight]
  | drop => exact List.Sublist.refl _
  | writeSlot v head => exact List.Sublist.refl _
  | «return» result => exact List.Sublist.refl _

theorem consumerStep_offered (s : SpscState T capacity) : s.consumerStep.offered = s.offered := by
  obtain ⟨producer, accepted⟩ := consumerStep_producer s
  rw [SpscState.offered, SpscState.offered, producer, accepted]

theorem DrainInv.offered_step (h : DrainInv actions apply start s) (turn : QueueTurn T) :
    (s.step actions apply turn).queue.offered.Sublist (s.queue.offered ++ s.begins turn) := by
  cases turn with
  | thread =>
    have outcome := threadStep_outcome actions apply s
    show (s.threadStep actions apply).queue.offered.Sublist (s.queue.offered ++ [])
    rw [List.append_nil]
    generalize s.threadStep actions apply = s' at outcome ⊢
    cases outcome with
    | popping => exact (consumerStep_offered s.queue) ▸ List.Sublist.refl _
    | empty => exact (consumerStep_offered s.queue) ▸ List.Sublist.refl _
    | taken => exact (consumerStep_offered s.queue) ▸ List.Sublist.refl _
    | rests => exact List.Sublist.refl _
    | loaded => exact List.Sublist.refl _
    | acted => exact List.Sublist.refl _
    | handled => exact List.Sublist.refl _
  | owner call =>
    have outcome := ownerStep_outcome s call
    show (s.ownerStep call).queue.offered.Sublist _
    generalize s.ownerStep call = s' at outcome ⊢
    cases outcome with
    | pushed value pc =>
      show (s.queue.producerStep value).offered.Sublist _
      rcases pc with ⟨pc, rfl⟩ | pc
      · rw [producerStep_begins (h.producer.mpr (by rw [pc]; exact id))]
        simp [DrainedQueue.begins, pc]
      · have busy : s.queue.producer ≠ .idle := fun idle => h.producer.mp idle (by rw [pc]; trivial)
        exact (producerStep_offered busy value).trans (List.sublist_append_left _ _)
    | called => exact List.sublist_append_left _ _
    | returned => exact List.sublist_append_left _ _
    | raised => exact List.sublist_append_left _ _
    | spawned => exact List.sublist_append_left _ _
    | cleared => exact List.sublist_append_left _ _
    | joined => exact List.sublist_append_left _ _
    | waits => exact List.sublist_append_left _ _

/-- Only elements whose push was begun get into the queue, each once and in order. -/
theorem DrainInv.offered_run (h : DrainInv actions apply start s) (turns : List (QueueTurn T)) :
    (s.run actions apply turns).queue.offered.Sublist
      (s.queue.offered ++ s.begun actions apply turns) := by
  induction turns generalizing s with
  | nil => exact List.sublist_append_left _ _
  | cons turn rest ih =>
    rw [DrainedQueue.begun, ← List.append_assoc]
    exact (ih (h.step turn)).trans ((h.offered_step turn).append_right _)

/-- The pushes that were begun, by those that have returned. -/
def SpscState.pushes (s : SpscState T capacity) : Nat :=
  match s.producer with
  | .idle => s.completedPushes
  | _ => s.completedPushes + 1

theorem producerStep_pushes (s : SpscState T capacity) (value : T) :
    (s.producer = .idle → (s.producerStep value).pushes = s.pushes + 1) ∧
      (s.producer ≠ .idle → (s.producerStep value).pushes = s.pushes) := by
  unfold SpscState.pushes SpscState.producerStep
  cases pc : s.producer with
  | loadTail v head =>
    refine ⟨fun idle => ?_, fun _ => ?_⟩
    · cases idle
    · by_cases full : increment head = s.ring.tail
      · simp only [if_pos full]
      · simp only [if_neg full]
  | _ => simp

theorem DrainInv.pushes_step (h : DrainInv actions apply start s) (turn : QueueTurn T) :
    (s.step actions apply turn).queue.pushes = s.queue.pushes + (s.begins turn).length := by
  cases turn with
  | thread =>
    have quiet : s.queue.consumerStep.pushes = s.queue.pushes := by
      unfold SpscState.pushes SpscState.consumerStep
      cases s.queue.consumer with
      | loadHead tail =>
        by_cases empty : tail = s.queue.ring.head
        · simp only [if_pos empty]
        · simp only [if_neg empty]
      | _ => rfl
    have outcome := threadStep_outcome actions apply s
    show (s.threadStep actions apply).queue.pushes = _
    generalize s.threadStep actions apply = s' at outcome ⊢
    cases outcome with
    | popping | empty | taken => exact quiet
    | _ => rfl
  | owner call =>
    have outcome := ownerStep_outcome s call
    show (s.ownerStep call).queue.pushes = _
    generalize s.ownerStep call = s' at outcome ⊢
    have none : (s.owner ≠ .idle ∨ ∀ value, call ≠ .push value) →
        s.begins (.owner call) = [] := by
      intro other
      cases call with
      | push value =>
        have away := other.resolve_right fun other => other value rfl
        simp only [DrainedQueue.begins]
      | _ => rfl
    cases outcome with
    | pushed value pc =>
      obtain ⟨first, later⟩ := producerStep_pushes s.queue value
      show (s.queue.producerStep value).pushes = _
      rcases pc with ⟨pc, rfl⟩ | pc
      · rw [first (h.producer.mpr (by rw [pc]; exact id))]
        simp [DrainedQueue.begins, pc]
      · rw [none (Or.inl (by rw [pc]; simp))]
        exact later fun idle => h.producer.mp idle (by rw [pc]; trivial)
    | called _ _ other =>
      rw [none (Or.inr other)]
      rfl
    | returned pc =>
      rw [none (Or.inl (by rcases pc with ⟨pc, _⟩ | ⟨pc, _⟩ <;> rw [pc] <;> simp))]
      rfl
    | raised pc | spawned pc | cleared pc | joined pc | waits pc =>
      rw [none (Or.inl (by rw [pc]; simp))]
      rfl

/-- Every push that was begun counts once. -/
theorem DrainInv.pushes_run (h : DrainInv actions apply start s) (turns : List (QueueTurn T)) :
    (s.run actions apply turns).queue.pushes =
      s.queue.pushes + (s.begun actions apply turns).length := by
  induction turns generalizing s with
  | nil => rfl
  | cons turn rest ih =>
    rw [DrainedQueue.begun, List.length_append, ← Nat.add_assoc, ← h.pushes_step turn]
    exact ih (h.step turn)

variable (actions apply) in
/-- A run knows the drops of its queue. -/
theorem DrainedQueue.pushAccount_run [Inhabited T] (first : S) (turns : List (QueueTurn T)) :
    ∃ drops, PushAccount ((DrainedQueue.init first : DrainedQueue T A S capacity).run actions apply
      turns).queue drops :=
  DrainedQueue.queue_run actions apply
    (P := fun queue : SpscState T capacity => ∃ drops, PushAccount queue drops)
    (fun _ value h => h.elim fun _ account => account.producerStep value)
    (fun _ h => h.imp fun _ account => account.consumerStep) ⟨0, pushAccount_start⟩ turns

variable (actions apply) in
/-- Once no push is under way, each was accepted or counted as a drop. -/
theorem DrainedQueue.pushes_account [Inhabited T] (first : S) (turns : List (QueueTurn T)) :
    let s := (DrainedQueue.init first : DrainedQueue T A S capacity).run actions apply turns
    s.queue.producer = .idle → ∃ drops, s.queue.ring.dropped = drops % 2 ^ 64 ∧
      s.queue.accepted.length + drops =
        ((DrainedQueue.init first : DrainedQueue T A S capacity).begun actions apply turns).length := by
  intro s idle
  obtain ⟨drops, account⟩ : ∃ drops, PushAccount s.queue drops :=
    DrainedQueue.pushAccount_run actions apply first turns
  have pushed : s.queue.pushes = _ := (drainInv_init actions apply first).pushes_run turns
  have total := account.total
  rw [idle] at total
  rw [SpscState.pushes, idle] at pushed
  refine ⟨drops, account.counter, ?_⟩
  have none : (0 : Nat) + ((DrainedQueue.init first).begun actions apply turns).length =
      s.queue.completedPushes := pushed.symm
  simp only [ProducerPc.counted] at total
  omega

end Begun

end NeuroKinetic
