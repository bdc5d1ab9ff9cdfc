import NeuroKinetic.DrainedStop

namespace NeuroKinetic

variable {T A B S R : Type} {capacity : Nat}

section Seen

variable (visible : A → Option B) (view : S → R)

/-- The thread as an observer of some of its actions sees it. -/
def ThreadAt.seen : ThreadAt A → ThreadAt B
  | .none => .none
  | .loadRunning => .loadRunning
  | .pop draining => .pop draining
  | .handle draining pending => .handle draining (pending.filterMap visible)
  | .finished => .finished

def DrainedQueue.seen (s : DrainedQueue T A S capacity) : DrainedQueue T B R capacity :=
  ⟨s.queue, s.running, s.owner, s.thread.seen visible, view s.state⟩

/-- An action that the observer does not see changes nothing that it sees. -/
def SeenThrough (apply : S → A → S) (apply' : R → B → R) : Prop :=
  ∀ state action,
    view (apply state action) = (visible action).elim (view state) (apply' (view state))

variable [NeZero capacity]

theorem DrainedQueue.seen_ownerStep (s : DrainedQueue T A S capacity) (call : QueueCall T) :
    (s.ownerStep call).seen visible view = (s.seen visible view).ownerStep call := by
  obtain ⟨queue, running, owner, thread, state⟩ := s
  cases owner with
  | idle =>
    cases call with
    | start => rfl
    | push value => rfl
    | stop => rfl
  | startExchange => cases running <;> rfl
  | startSpawn => rfl
  | push value => rfl
  | stopExchange => cases running <;> rfl
  | stopJoin => cases thread <;> rfl

omit [NeZero capacity] in
theorem DrainedQueue.seen_begins (s : DrainedQueue T A S capacity) (turn : QueueTurn T) :
    (s.seen visible view).begins turn = s.begins turn := by
  cases turn with
  | owner call => cases call <;> rfl
  | thread => rfl

variable {visible view} {actions : T → List A} {apply : S → A → S} {actions' : T → List B}
  {apply' : R → B → R}

/-- A step of the thread is a step of the thread that is seen, or is not seen at all. -/
theorem DrainedQueue.seen_threadStep
    (same : ∀ value, actions' value = (actions value).filterMap visible)
    (through : SeenThrough visible view apply apply') (s : DrainedQueue T A S capacity) :
    (s.threadStep actions apply).seen visible view =
        (s.seen visible view).threadStep actions' apply' ∨
      (s.threadStep actions apply).seen visible view = s.seen visible view := by
  obtain ⟨queue, running, owner, thread, state⟩ := s
  cases thread with
  | none => exact Or.inl rfl
  | loadRunning => exact Or.inl rfl
  | finished => exact Or.inl rfl
  | pop draining =>
    refine Or.inl ?_
    simp only [DrainedQueue.seen, DrainedQueue.threadStep, ThreadAt.seen]
    cases queue.popResult with
    | none => rfl
    | some answer =>
      cases answer with
      | none => cases draining <;> rfl
      | some value =>
        dsimp only
        rw [same value]
  | handle draining pending =>
    cases pending with
    | nil => exact Or.inl (by cases draining <;> rfl)
    | cons action rest =>
      have applied := through state action
      simp only [DrainedQueue.seen, DrainedQueue.threadStep, ThreadAt.seen, List.filterMap_cons]
      cases shown : visible action with
      | none =>
        rw [shown] at applied
        exact Or.inr (by rw [applied, Option.elim_none])
      | some b =>
        rw [shown] at applied
        exact Or.inl (by rw [applied, Option.elim_some])

/-- What is seen of a run is a run, of the turns that are seen. -/
theorem DrainedQueue.seen_run (same : ∀ value, actions' value = (actions value).filterMap visible)
    (through : SeenThrough visible view apply apply') (s : DrainedQueue T A S capacity)
    (turns : List (QueueTurn T)) : ∃ shown, shown.Sublist turns ∧
      (s.run actions apply turns).seen visible view = (s.seen visible view).run actions' apply' shown ∧
      (s.seen visible view).begun actions' apply' shown = s.begun actions apply turns := by
  induction turns generalizing s with
  | nil => exact ⟨[], .slnil, rfl, rfl⟩
  | cons turn rest ih =>
    obtain ⟨shown, among, reached, begun⟩ := ih (s.step actions apply turn)
    have taken : (s.step actions apply turn).seen visible view =
          (s.seen visible view).step actions' apply' turn ∨
        (s.step actions apply turn).seen visible view = s.seen visible view ∧ turn = .thread := by
      cases turn with
      | owner call => exact Or.inl (s.seen_ownerStep visible view call)
      | thread => exact (seen_threadStep same through s).imp id fun unseen => ⟨unseen, rfl⟩
    rcases taken with step | ⟨unseen, rfl⟩
    · refine ⟨turn :: shown, among.cons_cons turn, ?_, ?_⟩
      · rw [DrainedQueue.run, List.foldl_cons, DrainedQueue.run, List.foldl_cons, ← step]
        exact reached
      · rw [DrainedQueue.begun, DrainedQueue.begun, seen_begins, ← step, begun]
    · refine ⟨shown, among.cons _, ?_, ?_⟩
      · rw [← unseen, ← reached]
        rfl
      · rw [← unseen, begun]
        rfl

end Seen

end NeuroKinetic
