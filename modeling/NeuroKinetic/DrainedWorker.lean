import NeuroKinetic.DrainedStop
import NeuroKinetic.Exposition

namespace NeuroKinetic

variable {K : Type} {capacity : Nat}

section Places

def OwnerPc.place : OwnerPc K → OwnerAt (KinematicTelemetryFrame K)
  | .idle => .idle
  | .startExchange => .startExchange
  | .startSpawn => .startSpawn
  | .push frame => .push frame
  | .stopExchange => .stopExchange
  | .stopJoin => .stopJoin

def DrainPc.place : DrainPc K → ThreadAt (MetricUpdate K)
  | .none => .none
  | .loadRunning => .loadRunning
  | .pop draining => .pop draining
  | .record draining pending => .handle draining pending
  | .finished => .finished

def OwnerCall.queueCall : OwnerCall K → QueueCall (KinematicTelemetryFrame K)
  | .start => .start
  | .tryPush frame => .push frame
  | .stop => .stop

def WorkerTurn.queueTurn : WorkerTurn K → QueueTurn (KinematicTelemetryFrame K)
  | .owner call => .owner call.queueCall
  | .worker => .thread

/-- A worker is a queue whose thread takes the accesses of `record` for its actions. -/
def TelemetryWorker.drained (s : TelemetryWorker K capacity) :
    DrainedQueue (KinematicTelemetryFrame K) (MetricUpdate K) (RecordedMetrics K) capacity :=
  ⟨s.queue, s.running, s.owner.place, s.worker.place, s.metrics⟩

end Places

variable [NeZero capacity]

section Steps

theorem TelemetryWorker.drained_pushStep (s : TelemetryWorker K capacity)
    (frame : KinematicTelemetryFrame K) : (s.pushStep frame).drained = s.drained.pushStep frame := by
  obtain ⟨queue, running, owner, worker, metrics⟩ := s
  simp only [drained, pushStep, DrainedQueue.pushStep]
  cases queue.producer <;> rfl

theorem TelemetryWorker.drained_ownerStep (s : TelemetryWorker K capacity) (call : OwnerCall K) :
    (s.ownerStep call).drained = s.drained.ownerStep call.queueCall := by
  obtain ⟨queue, running, owner, worker, metrics⟩ := s
  cases owner with
  | idle =>
    cases call with
    | start => rfl
    | tryPush frame => exact drained_pushStep ⟨queue, running, .idle, worker, metrics⟩ frame
    | stop => rfl
  | startExchange => cases running <;> rfl
  | startSpawn => rfl
  | push frame => exact drained_pushStep ⟨queue, running, .push frame, worker, metrics⟩ frame
  | stopExchange => cases running <;> rfl
  | stopJoin => cases worker <;> rfl

variable [Field K] [LinearOrder K] [FloorSemiring K] [RoundedMul K]

theorem TelemetryWorker.drained_drainStep (s : TelemetryWorker K capacity) :
    s.drainStep.drained = s.drained.threadStep recordUpdates fun m update => update.apply m := by
  obtain ⟨queue, running, owner, worker, metrics⟩ := s
  cases worker with
  | none => rfl
  | loadRunning => rfl
  | pop draining =>
    simp only [drained, drainStep, DrainPc.place, DrainedQueue.threadStep]
    cases queue.popResult with
    | none => rfl
    | some answer =>
      cases answer with
      | none => cases draining <;> rfl
      | some frame => rfl
  | record draining pending =>
    cases pending with
    | nil => cases draining <;> rfl
    | cons update rest => rfl
  | finished => rfl

theorem TelemetryWorker.drained_run (s : TelemetryWorker K capacity) (turns : List (WorkerTurn K)) :
    (s.run turns).drained =
      s.drained.run recordUpdates (fun m update => update.apply m)
        (turns.map WorkerTurn.queueTurn) := by
  induction turns generalizing s with
  | nil => rfl
  | cons turn rest ih =>
    rw [TelemetryWorker.run, List.foldl_cons, List.map_cons]
    refine (ih (s.step turn)).trans ?_
    have step : (s.step turn).drained =
        s.drained.step recordUpdates (fun m update => update.apply m) turn.queueTurn := by
      cases turn with
      | owner call => exact s.drained_ownerStep call
      | worker => exact s.drained_drainStep
    rw [step]
    rfl

end Steps

section Runs

variable [Field K] [LinearOrder K] [FloorSemiring K] [RoundedMul K]

/-- The frames of the `try_push` calls that the turns begin. -/
def TelemetryWorker.begun (s : TelemetryWorker K capacity) (turns : List (WorkerTurn K)) :
    List (KinematicTelemetryFrame K) :=
  s.drained.begun recordUpdates (fun m update => update.apply m) (turns.map WorkerTurn.queueTurn)

variable (K capacity) in
theorem recording_init : DrainInv recordUpdates (fun m update => MetricUpdate.apply m update)
    RecordedMetrics.start (TelemetryWorker.init : TelemetryWorker K capacity).drained :=
  drainInv_init _ _ _

theorem TelemetryWorker.inv (turns : List (WorkerTurn K)) :
    DrainInv recordUpdates (fun m update => update.apply m) RecordedMetrics.start
      ((TelemetryWorker.init : TelemetryWorker K capacity).run turns).drained := by
  rw [drained_run]
  exact (recording_init K capacity).run _

theorem TelemetryWorker.accepted_begun (turns : List (WorkerTurn K)) :
    ((TelemetryWorker.init : TelemetryWorker K capacity).run turns).queue.accepted.Sublist
      ((TelemetryWorker.init : TelemetryWorker K capacity).begun turns) := by
  have offered := (recording_init K capacity).offered_run (turns.map WorkerTurn.queueTurn)
  have reached := (TelemetryWorker.init : TelemetryWorker K capacity).drained_run turns
  exact (List.sublist_append_left _ _).trans ((congrArg DrainedQueue.queue reached) ▸ offered)

/-- A `stop` that returns from its wait leaves every accepted frame recorded. -/
theorem TelemetryWorker.stop_returned (turns : List (WorkerTurn K)) {call : OwnerCall K} :
    let s := (TelemetryWorker.init : TelemetryWorker K capacity).run turns
    s.owner = .stopJoin → (s.ownerStep call).owner = .idle →
      (s.ownerStep call).queue = s.queue ∧ s.queue.ring.queued = 0 ∧
        (s.ownerStep call).metrics = recordedAfter (recordAll s.queue.accepted) ∧
        ∃ drops, s.queue.ring.dropped = drops % 2 ^ 64 ∧
          drops + s.queue.accepted.length = s.queue.completedPushes := by
  intro s joining returned
  have reached : s.drained = (DrainedQueue.init RecordedMetrics.start).run recordUpdates
      (fun m update => MetricUpdate.apply m update) (turns.map WorkerTurn.queueTurn) :=
    (TelemetryWorker.init : TelemetryWorker K capacity).drained_run turns
  have waits : s.drained.owner = .stopJoin := congrArg OwnerPc.place joining
  have done : (s.drained.ownerStep call.queueCall).owner = .idle := by
    rw [← s.drained_ownerStep call]
    exact congrArg OwnerPc.place returned
  rw [reached] at waits done
  have stopped := DrainedQueue.stop_returned recordUpdates
    (fun m update => MetricUpdate.apply m update) RecordedMetrics.start
    (turns.map WorkerTurn.queueTurn) waits done
  rw [← reached, ← s.drained_ownerStep call] at stopped
  obtain ⟨after, empty, state, account⟩ := stopped
  have queue : (s.ownerStep call).queue = s.queue := congrArg DrainedQueue.queue after
  have metrics : (s.ownerStep call).metrics = s.metrics := congrArg DrainedQueue.state after
  exact ⟨queue, empty, metrics.trans state, account⟩

/-- Every push that has returned was accepted or counted as a drop. -/
theorem TelemetryWorker.pushes_account (turns : List (WorkerTurn K)) :
    let s := (TelemetryWorker.init : TelemetryWorker K capacity).run turns
    s.queue.producer = .idle → ∃ drops, s.queue.ring.dropped = drops % 2 ^ 64 ∧
      s.queue.accepted.length + drops =
        ((TelemetryWorker.init : TelemetryWorker K capacity).begun turns).length := by
  intro s idle
  have reached : s.drained = _ :=
    (TelemetryWorker.init : TelemetryWorker K capacity).drained_run turns
  have queue : s.queue = _ := congrArg DrainedQueue.queue reached
  rw [queue] at idle ⊢
  exact DrainedQueue.pushes_account recordUpdates (fun m update => MetricUpdate.apply m update)
    RecordedMetrics.start (turns.map WorkerTurn.queueTurn) idle

end Runs

end NeuroKinetic
