import Mathlib.Algebra.Order.BigOperators.Group.List
import Mathlib.Algebra.Order.Ring.Nat
import NeuroKinetic.DrainedRuns

open RingIndex

namespace NeuroKinetic

variable {T A S : Type} {capacity : Nat}

def QueueTurn.isThread : QueueTurn T → Bool
  | .owner _ => false
  | .thread => true

section Work

/-- The turns of a pop that has yet to find an element, and of the loop around it. -/
def popWork (draining : Bool) : ConsumerPc T capacity → Nat
  | .idle => if draining then 4 else 7
  | .loadHead _ => if draining then 3 else 6
  | .readSlot _ => 2
  | .storeTail _ _ => 1

def threadWork (consumer : ConsumerPc T capacity) : ThreadAt A → Nat
  | .none | .finished => 0
  | .loadRunning => 5
  | .pop draining => popWork draining consumer
  | .handle draining pending => pending.length + if draining then 5 else 6

/-- What the thread has yet to take. -/
def DrainedQueue.remaining (s : DrainedQueue T A S capacity) : List T :=
  s.queue.accepted.drop s.queue.popped.length

variable (actions : T → List A)

/-- Enough turns for the thread to end, once the flag is cleared: seven for an element
beside its actions, and those of its place. -/
def DrainedQueue.work (s : DrainedQueue T A S capacity) : Nat :=
  (s.remaining.map fun value => (actions value).length + 7).sum + threadWork s.queue.consumer s.thread

variable {actions} {apply : S → A → S} {start : S} {s : DrainedQueue T A S capacity}

theorem work_pos (alive : s.thread ≠ .none) (unfinished : s.thread ≠ .finished) :
    0 < s.work actions := by
  refine Nat.add_pos_right _ ?_
  cases pc : s.thread with
  | none => exact absurd pc alive
  | loadRunning => exact Nat.succ_pos 4
  | pop draining => cases s.queue.consumer <;> cases draining <;> exact Nat.succ_pos _
  | handle draining pending => cases draining <;> exact Nat.succ_pos _
  | finished => exact absurd pc unfinished

variable [NeZero capacity]

/-- A pop that goes on comes closer to its element. -/
theorem popWork_lt {queue : SpscState T capacity} (result : queue.popResult = none)
    (draining : Bool) : popWork draining queue.consumerStep.consumer <
      popWork draining queue.consumer := by
  unfold SpscState.popResult at result
  unfold SpscState.consumerStep
  split at result
  next tail pc =>
    split at result
    next => cases result
    next nonempty =>
      simp only [pc, if_neg nonempty]
      cases draining with
      | false => exact show 2 < 6 by omega
      | true => exact show 2 < 3 by omega
  next => cases result
  next other loading =>
    cases pc : queue.consumer with
    | idle => cases draining <;> simp [popWork]
    | loadHead tail => exact absurd pc (other tail)
    | readSlot tail => simp [popWork]
    | storeTail tail value => exact absurd pc (loading tail value)

/-- An element that is taken was the next one. -/
theorem DrainInv.remaining_taken (h : DrainInv actions apply start s) {value : T}
    (result : s.queue.popResult = some (some value)) :
    s.remaining = value :: s.queue.accepted.drop (s.queue.popped.length + 1) := by
  have held := h.queue.consumer
  unfold SpscState.popResult at result
  split at result
  next => split at result <;> cases result
  next tail next pc =>
    cases result
    rw [pc] at held
    obtain ⟨inside, eq⟩ := List.getElem?_eq_some_iff.mp held.2
    rw [DrainedQueue.remaining, List.drop_eq_getElem_cons inside, eq]
  next => cases result

theorem DrainInv.work_decreases (h : DrainInv actions apply start s) (off : s.running = false)
    (alive : s.thread ≠ .none) (unfinished : s.thread ≠ .finished) :
    (s.threadStep actions apply).work actions < s.work actions := by
  have same := (consumerStep_producer s.queue).2
  have outcome := threadStep_outcome actions apply s
  generalize s.threadStep actions apply = s' at outcome ⊢
  cases outcome with
  | rests pc =>
    rcases pc with none | finished
    · exact absurd none alive
    · exact absurd finished unfinished
  | loaded pc =>
    have idle := h.consumer (by rw [pc]; exact id)
    simp only [DrainedQueue.work, DrainedQueue.remaining, pc, off, idle, threadWork, popWork]
    exact Nat.add_lt_add_left (by decide) _
  | popping draining pc result =>
    have kept := consumerStep_pending result
    have closer := popWork_lt result draining
    simp only [DrainedQueue.work, DrainedQueue.remaining, pc, kept, same, threadWork]
    omega
  | empty draining pc result =>
    obtain ⟨idle, kept, _⟩ := consumerStep_empty h.queue result
    obtain ⟨tail, loading⟩ : ∃ tail, s.queue.consumer = .loadHead tail := by
      unfold SpscState.popResult at result
      split at result
      next tail pc => exact ⟨tail, pc⟩
      next => cases Option.some.inj result
      next => cases result
    simp only [DrainedQueue.work, DrainedQueue.remaining, pc, kept, same, idle, loading]
    cases draining with
    | false => exact Nat.add_lt_add_left (show 5 < 6 by omega) _
    | true => exact Nat.add_lt_add_left (show 0 < 3 by omega) _
  | taken draining value pc result =>
    obtain ⟨idle, taken⟩ := consumerStep_popped result
    have storing : threadWork s.queue.consumer (.pop draining : ThreadAt A) = 1 := by
      unfold SpscState.popResult at result
      split at result
      next => split at result <;> cases result
      next pc => rw [threadWork, pc, popWork]
      next => cases result
    simp only [DrainedQueue.work, pc, storing, h.remaining_taken result, List.map_cons,
      List.sum_cons]
    simp only [DrainedQueue.remaining, same, taken, List.length_append, List.length_singleton,
      threadWork]
    split <;> omega
  | acted draining action rest pc =>
    simp only [DrainedQueue.work, DrainedQueue.remaining, pc, threadWork, List.length_cons]
    omega
  | handled draining pc =>
    have idle := h.consumer (by rw [pc]; exact id)
    simp only [DrainedQueue.work, DrainedQueue.remaining, pc, idle]
    cases draining with
    | false => exact Nat.add_lt_add_left (show 5 < 0 + 6 by omega) _
    | true => exact Nat.add_lt_add_left (show 4 < 0 + 5 by omega) _

/-- What a cleared flag leaves to do does not depend on the past. -/
theorem DrainInv.work_le (h : DrainInv actions apply start s) {most : Nat}
    (short : ∀ value, (actions value).length ≤ most) :
    s.work actions ≤ capacity * (most + 7) := by
  have room := h.queue.room
  have order := h.queue.order
  have few : s.remaining.length + 1 ≤ capacity := by
    rw [DrainedQueue.remaining, List.length_drop]
    omega
  have elements : (s.remaining.map fun value => (actions value).length + 7).sum ≤
      s.remaining.length * (most + 7) := by
    have each := List.sum_le_card_nsmul (s.remaining.map fun value => (actions value).length + 7)
      (most + 7) fun n member => by
        obtain ⟨value, _, rfl⟩ := List.mem_map.mp member
        exact Nat.add_le_add_right (short value) 7
    rwa [List.length_map, Nat.nsmul_eq_mul] at each
  have hands : s.thread.pending.length ≤ most := by
    rcases h.hands with none | ⟨_, value, _, part⟩
    · rw [none]
      exact Nat.zero_le _
    · exact part.length_le.trans (short value)
  have place : threadWork s.queue.consumer s.thread ≤ most + 7 := by
    cases pc : s.thread with
    | none => exact Nat.zero_le _
    | loadRunning => exact show 5 ≤ most + 7 by omega
    | pop draining =>
      have : popWork draining s.queue.consumer ≤ 7 := by
        cases s.queue.consumer <;> cases draining <;> simp [popWork]
      exact this.trans (Nat.le_add_left 7 most)
    | handle draining pending =>
      rw [pc] at hands
      simp only [ThreadAt.pending] at hands
      simp only [threadWork]
      split <;> omega
    | finished => exact Nat.zero_le _
  calc s.work actions ≤ s.remaining.length * (most + 7) + (most + 7) := Nat.add_le_add elements place
    _ = (s.remaining.length + 1) * (most + 7) := (Nat.succ_mul _ _).symm
    _ ≤ capacity * (most + 7) := Nat.mul_le_mul_right _ few

theorem threadStep_owner (actions : T → List A) (apply : S → A → S)
    (s : DrainedQueue T A S capacity) : (s.threadStep actions apply).owner = s.owner ∧
      (s.threadStep actions apply).queue.accepted = s.queue.accepted := by
  have same := (consumerStep_producer s.queue).2
  have outcome := threadStep_outcome actions apply s
  generalize s.threadStep actions apply = s' at outcome ⊢
  cases outcome with
  | popping | empty | taken => exact ⟨rfl, same⟩
  | _ => exact ⟨rfl, rfl⟩

/-- Once the owner waits for it, the thread ends after so many of its own turns, whatever
turns the owner is given between them. -/
theorem DrainInv.thread_finishes (h : DrainInv actions apply start s) (joining : s.owner = .stopJoin)
    {turns : List (QueueTurn T)} (enough : s.work actions ≤ turns.countP QueueTurn.isThread) :
    ∃ before after, turns = before ++ after ∧ (s.run actions apply before).owner = .stopJoin ∧
      (s.run actions apply before).thread = .finished ∧
      (s.run actions apply before).queue.accepted = s.queue.accepted := by
  induction turns generalizing s with
  | nil =>
    have lifecycle := h.lifecycle
    rw [joining] at lifecycle
    refine ⟨[], [], rfl, joining, ?_, rfl⟩
    by_contra unfinished
    have busy : 0 < s.work actions := work_pos lifecycle.2 unfinished
    rw [List.countP_nil] at enough
    omega
  | cons turn rest ih =>
    have lifecycle := h.lifecycle
    rw [joining] at lifecycle
    by_cases gone : s.thread = .finished
    · exact ⟨[], turn :: rest, rfl, joining, gone, rfl⟩
    · cases turn with
      | owner call =>
        have waits : s.ownerStep call = s := by
          unfold DrainedQueue.ownerStep
          rw [joining]
          dsimp only
          split
          next finished => exact absurd finished gone
          next => rfl
        obtain ⟨before, after, eq, ended⟩ := ih h joining (by simpa [QueueTurn.isThread] using enough)
        refine ⟨.owner call :: before, after, by rw [eq, List.cons_append], ?_⟩
        rw [DrainedQueue.run, List.foldl_cons, DrainedQueue.step, waits]
        exact ended
      | thread =>
        have less := h.work_decreases lifecycle.1 lifecycle.2 gone
        obtain ⟨owner, accepted⟩ := threadStep_owner actions apply s
        simp only [List.countP_cons, QueueTurn.isThread, if_true] at enough
        obtain ⟨before, after, eq, still, ended, kept⟩ :=
          ih h.threadStep (owner.trans joining) (by omega)
        exact ⟨.thread :: before, after, by rw [eq, List.cons_append], still, ended,
          kept.trans accepted⟩

end Work

section Joined

variable [NeZero capacity] {actions : T → List A} {apply : S → A → S} {start : S}
  {s : DrainedQueue T A S capacity}

/-- A `stop` returns from its wait only when the thread has finished. -/
theorem finished_of_returned (joining : s.owner = .stopJoin) {call : QueueCall T}
    (returned : (s.ownerStep call).owner = .idle) : s.thread = .finished := by
  have outcome := ownerStep_outcome s call
  generalize s.ownerStep call = s' at outcome returned
  cases outcome with
  | joined _ gone => exact gone
  | waits =>
    rw [joining] at returned
    cases returned
  | called _ pc | raised pc | spawned pc | cleared pc =>
    rw [joining] at pc
    cases pc
  | pushed _ pc => rcases pc with ⟨pc, _⟩ | pc <;> rw [joining] at pc <;> cases pc
  | returned pc => rcases pc with ⟨pc, _⟩ | ⟨pc, _⟩ <;> rw [joining] at pc <;> cases pc

theorem ownerStep_joined (joining : s.owner = .stopJoin) (gone : s.thread = .finished)
    (call : QueueCall T) : s.ownerStep call = { s with thread := .none, owner := .idle } := by
  unfold DrainedQueue.ownerStep
  rw [joining, gone]

/-- What a finished thread has done: the actions of every element that got in. -/
theorem DrainInv.finished_state (h : DrainInv actions apply start s) (gone : s.thread = .finished) :
    s.queue.popped = s.queue.accepted ∧
      s.state = (s.queue.accepted.flatMap actions).foldl apply start := by
  obtain ⟨done, popped, state⟩ := h.handled
  have all : s.queue.popped = s.queue.accepted := h.queue.fifo.eq_of_length (h.finished gone)
  rw [gone] at popped
  refine ⟨all, ?_⟩
  rw [state, ← all, popped]
  exact congrArg (List.foldl apply start) (List.append_nil done).symm

variable (actions apply) in
/-- A `stop` that returns from its wait leaves an empty queue, every element that got in
handled whole, and every push accepted or counted as a drop. -/
theorem DrainedQueue.stop_returned [Inhabited T] (first : S) (turns : List (QueueTurn T))
    {call : QueueCall T} :
    let s := (DrainedQueue.init first : DrainedQueue T A S capacity).run actions apply turns
    s.owner = .stopJoin → (s.ownerStep call).owner = .idle →
      s.ownerStep call = { s with thread := .none, owner := .idle } ∧ s.queue.ring.queued = 0 ∧
        s.state = (s.queue.accepted.flatMap actions).foldl apply first ∧
        ∃ drops, s.queue.ring.dropped = drops % 2 ^ 64 ∧
          drops + s.queue.accepted.length = s.queue.completedPushes := by
  intro s joining returned
  have inv : DrainInv actions apply first s := (drainInv_init actions apply first).run turns
  have gone := finished_of_returned joining returned
  obtain ⟨all, state⟩ := inv.finished_state gone
  have queued := inv.queue.queued_add
  obtain ⟨drops, account⟩ : ∃ drops, PushAccount s.queue drops :=
    DrainedQueue.pushAccount_run actions apply first turns
  have quiet : s.queue.producer = .idle := inv.producer.mpr (by rw [joining]; exact id)
  have total := account.total
  rw [quiet] at total
  rw [all] at queued
  exact ⟨ownerStep_joined joining gone call, by omega, state, drops, account.counter, total⟩

end Joined

end NeuroKinetic
