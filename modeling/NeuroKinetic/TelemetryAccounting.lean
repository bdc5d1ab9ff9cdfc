import NeuroKinetic.DrainedWorker
import Mathlib.Data.Rat.Floor

open RingIndex

namespace NeuroKinetic

variable {K : Type} {capacity : Nat}

section Samples

def pendingSamples (updates : List (MetricUpdate K)) : Nat := (updates.map MetricUpdate.samples).sum

/-- Frames that were popped and are not counted yet. -/
def DrainPc.pending : DrainPc K → Nat
  | .record _ updates => pendingSamples updates
  | _ => 0

theorem DrainPc.pending_place (worker : DrainPc K) :
    pendingSamples worker.place.pending = worker.pending := by
  cases worker <;> rfl

theorem pendingSamples_append (made pending : List (MetricUpdate K)) :
    pendingSamples (made ++ pending) = pendingSamples made + pendingSamples pending := by
  rw [pendingSamples, List.map_append, List.sum_append, pendingSamples, pendingSamples]

end Samples

variable [NeZero capacity]

section Account

variable [Field K] [LinearOrder K] [FloorSemiring K] [RoundedMul K]

/-- Every tick is accounted for: at any moment an accepted frame is counted,
queued or in the worker's hands, and a `stop` that ended the worker leaves an
empty queue and every push counted or dropped. -/
theorem telemetry_accounted
    (turns : List (WorkerTurn K)) :
    let s := (TelemetryWorker.init : TelemetryWorker K capacity).run turns
    (s.worker.pending ≤ 1 ∧ ∃ recorded, s.metrics.loopSamples = recorded % 2 ^ 64 ∧
      s.queue.accepted.length = recorded + s.queue.ring.queued + s.worker.pending) ∧
    ∀ call, s.owner = .stopJoin → (s.ownerStep call).owner = .idle →
      (s.ownerStep call).queue.ring.queued = 0 ∧
      ∃ recorded drops, (s.ownerStep call).metrics.loopSamples = recorded % 2 ^ 64 ∧
        (s.ownerStep call).queue.ring.dropped = drops % 2 ^ 64 ∧
        recorded + drops = (s.ownerStep call).queue.completedPushes := by
  intro s
  have inv : DrainInv recordUpdates (fun m update => update.apply m) RecordedMetrics.start
      s.drained := TelemetryWorker.inv turns
  obtain ⟨whole, inHand, made, popped, single, rest, metrics⟩ := inv.in_hand
  have hands : pendingSamples made + s.worker.pending = inHand.length := by
    have counted := recordAll_samples inHand
    rw [recordAll, ← rest] at counted
    rw [← s.worker.pending_place, ← pendingSamples_append]
    exact counted
  have samples : s.metrics.loopSamples = (whole.length + pendingSamples made) % 2 ^ 64 := by
    have counted := recordedAfter_samples (whole.flatMap recordUpdates ++ made)
    rw [← recordAll, List.map_append, List.sum_append, recordAll_samples] at counted
    exact (congrArg RecordedMetrics.loopSamples metrics).trans counted
  have taken : s.queue.popped.length = whole.length + inHand.length := by
    rw [← List.length_append]
    exact congrArg List.length popped
  have queued : s.queue.popped.length + s.queue.ring.queued = s.queue.accepted.length :=
    inv.queue.queued_add
  refine ⟨⟨by omega, _, samples, by omega⟩, fun call joining returned => ?_⟩
  obtain ⟨queue, empty, stopped, drops, counter, total⟩ :=
    TelemetryWorker.stop_returned turns joining returned
  rw [queue, stopped, recordedAfter_samples, recordAll_samples]
  exact ⟨empty, s.queue.accepted.length, drops, rfl, counter, by rw [Nat.add_comm]; exact total⟩

end Account

/-- A frame pushed before `start` and one after it; the worker sees the flag
only when it is already cleared. -/
def lateWorkerTurns : List (WorkerTurn ℚ) :=
  List.replicate 5 (.owner (.tryPush ⟨0, .fin 10, .fin 0, .fin 1, 4⟩)) ++
    List.replicate 3 (.owner .start) ++
    List.replicate 5 (.owner (.tryPush ⟨1, .fin 20, .fin 0, .fin 1, 0⟩)) ++
    List.replicate 2 (.owner .stop) ++ List.replicate 25 .worker

theorem telemetry_accounted_late :
    let s := (TelemetryWorker.init : TelemetryWorker ℚ 4096).run lateWorkerTurns
    s.owner = .stopJoin ∧ (s.ownerStep .stop).owner = .idle ∧
      ∃ recorded drops, (s.ownerStep .stop).metrics.loopSamples = recorded % 2 ^ 64 ∧
        (s.ownerStep .stop).queue.ring.dropped = drops % 2 ^ 64 ∧
        recorded + drops = (s.ownerStep .stop).queue.completedPushes := by
  refine ⟨rfl, rfl, ?_⟩
  exact ((telemetry_accounted lateWorkerTurns).2 .stop rfl rfl).2

section Wrapped

theorem consumerStep_counts {T : Type} (s : SpscState T capacity) :
    s.consumerStep.ring.dropped = s.ring.dropped ∧
      s.consumerStep.completedPushes = s.completedPushes := by
  unfold SpscState.consumerStep
  split <;> try exact ⟨rfl, rfl⟩
  split <;> exact ⟨rfl, rfl⟩

/-- The worker's turns leave the counts of the owner's side alone. -/
theorem run_workers_counts [Field K] [LinearOrder K] [FloorSemiring K] [RoundedMul K]
    (s : TelemetryWorker K capacity) (n : Nat) :
    (s.run (List.replicate n .worker)).queue.ring.dropped = s.queue.ring.dropped ∧
      (s.run (List.replicate n .worker)).queue.completedPushes = s.queue.completedPushes := by
  induction n generalizing s with
  | zero => exact ⟨rfl, rfl⟩
  | succ n ih =>
    have step : s.drainStep.queue = s.queue ∨ s.drainStep.queue = s.queue.consumerStep := by
      unfold TelemetryWorker.drainStep
      split <;> first | exact Or.inl rfl | exact Or.inr rfl
    obtain ⟨dropped, completed⟩ := ih s.drainStep
    obtain ⟨same, total⟩ := consumerStep_counts s.queue
    rw [List.replicate_succ, TelemetryWorker.run, List.foldl_cons]
    rcases step with step | step
    · exact ⟨dropped.trans (by rw [step]), completed.trans (by rw [step])⟩
    · exact ⟨dropped.trans (by rw [step, same]), completed.trans (by rw [step, total])⟩

theorem pushStep_owner (s : TelemetryWorker K capacity) (frame : KinematicTelemetryFrame K) :
    (s.pushStep frame).owner = .idle ∨ (s.pushStep frame).owner = .push frame := by
  unfold TelemetryWorker.pushStep
  split
  · exact Or.inl rfl
  · exact Or.inr rfl

variable (capacity) in
/-- Before `start` the pushes run the queue alone. -/
theorem run_tryPush [Field K] [LinearOrder K] [FloorSemiring K] [RoundedMul K]
    (frame : KinematicTelemetryFrame K) (n : Nat) :
    ∃ owner : OwnerPc K, (owner = .idle ∨ owner = .push frame) ∧
      (TelemetryWorker.init : TelemetryWorker K capacity).run
        (List.replicate n (.owner (.tryPush frame))) =
        ⟨SpscState.start.run (List.replicate n (.producer frame)), false, owner, .none,
          RecordedMetrics.start⟩ := by
  induction n with
  | zero => exact ⟨.idle, Or.inl rfl, rfl⟩
  | succ n ih =>
    obtain ⟨owner, place, reached⟩ := ih
    rw [List.replicate_succ', List.replicate_succ', SpscState.run_snoc, TelemetryWorker.run,
      List.foldl_append]
    generalize (SpscState.start : SpscState _ capacity).run
      (List.replicate n (.producer frame)) = queue at reached ⊢
    rw [TelemetryWorker.run] at reached
    rw [reached]
    refine ⟨((⟨queue, false, owner, .none, RecordedMetrics.start⟩ :
      TelemetryWorker K capacity).pushStep frame).owner, pushStep_owner _ frame, ?_⟩
    rcases place with rfl | rfl <;> rfl

variable (capacity) in
theorem unread_queue {T : Type} [Inhabited T] (value : T) (calls : Nat) :
    let s := (SpscState.start : SpscState T capacity).run
      (List.replicate (5 * (capacity - 1) + 4 * calls) (.producer value))
    s.producer = .idle ∧ s.accepted.length = capacity - 1 ∧ s.ring.dropped = calls % 2 ^ 64 ∧
      s.completedPushes = capacity - 1 + calls := by
  have positive := NeZero.pos capacity
  obtain ⟨idle, _, popped, accepted, dropped, completed⟩ :=
    run_pushes value (show capacity - 1 < capacity by omega)
  have inv : SpscInv ((SpscState.start : SpscState T capacity).run
    (List.replicate (5 * (capacity - 1)) (.producer value))) := spscInv_start.run _
  rw [← List.replicate_append_replicate, SpscState.run, List.foldl_append]
  rw [SpscState.run] at idle popped accepted dropped completed inv
  generalize List.foldl SpscState.step (SpscState.start : SpscState T capacity)
    (List.replicate (5 * (capacity - 1)) (.producer value)) = filled at *
  have full := inv.full_iff.mpr (by rw [accepted, popped, List.length_nil]; omega)
  have refused := run_refusals idle full (by rw [dropped]; exact Nat.two_pow_pos 64) value calls
  rw [SpscState.run] at refused
  rw [refused]
  refine ⟨idle, accepted, ?_, congrArg (· + calls) completed⟩
  show (_ + calls) % 2 ^ 64 = calls % 2 ^ 64
  rw [dropped, Nat.zero_add]

variable [Field K] [LinearOrder K] [FloorSemiring K] [RoundedMul K]

/-- Pushes that fill the queue and so many more, then `start`, `stop` and the worker's turns. -/
def unreadTurns (capacity : Nat) (frame : KinematicTelemetryFrame K) (calls turns : Nat) :
    List (WorkerTurn K) :=
  List.replicate (5 * (capacity - 1) + 4 * calls) (.owner (.tryPush frame)) ++
    List.replicate 3 (.owner .start) ++ List.replicate 2 (.owner .stop) ++
    List.replicate turns .worker

variable (capacity) in
/-- The worker that the owner waits for, before its first turn. -/
theorem unread_joining (frame : KinematicTelemetryFrame K) (calls : Nat) :
    ∃ queue : SpscState (KinematicTelemetryFrame K) capacity,
      queue.accepted.length = capacity - 1 ∧ queue.ring.dropped = calls % 2 ^ 64 ∧
        queue.completedPushes = capacity - 1 + calls ∧
        (TelemetryWorker.init : TelemetryWorker K capacity).run (unreadTurns capacity frame calls 0) =
          ⟨queue, false, .stopJoin, .loadRunning, RecordedMetrics.start⟩ := by
  obtain ⟨idle, accepted, dropped, completed⟩ := unread_queue capacity frame calls
  refine ⟨_, accepted, dropped, completed, ?_⟩
  obtain ⟨owner, place, reached⟩ := run_tryPush capacity frame
    (5 * (capacity - 1) + 4 * calls)
  have inv : DrainInv recordUpdates (fun m update => MetricUpdate.apply m update)
      RecordedMetrics.start ((TelemetryWorker.init : TelemetryWorker K capacity).run
        (List.replicate (5 * (capacity - 1) + 4 * calls) (.owner (.tryPush frame)))).drained :=
    TelemetryWorker.inv _
  rw [reached] at inv
  obtain rfl : owner = .idle := by
    refine place.resolve_right fun pushing => ?_
    exact inv.producer.mp idle (by rw [pushing]; trivial)
  rw [unreadTurns, TelemetryWorker.run, List.foldl_append, List.foldl_append, List.foldl_append]
  rw [TelemetryWorker.run] at reached
  rw [reached]
  rfl

omit [Field K] [LinearOrder K] [FloorSemiring K] [RoundedMul K] in
theorem OwnerPc.place_stopJoin {owner : OwnerPc K} (h : owner.place = .stopJoin) :
    owner = .stopJoin := by
  cases owner <;> first | rfl | cases h

omit [Field K] [LinearOrder K] [FloorSemiring K] [RoundedMul K] in
theorem DrainPc.place_finished {worker : DrainPc K} (h : worker.place = .finished) :
    worker = .finished := by
  cases worker <;> first | rfl | cases h

variable (capacity) in
theorem unread_stopped (frame : KinematicTelemetryFrame K) (calls : Nat) : ∃ turns,
    let s := (TelemetryWorker.init : TelemetryWorker K capacity).run
      (unreadTurns capacity frame calls turns)
    s.owner = .stopJoin ∧ (s.ownerStep .stop).owner = .idle ∧
      (s.ownerStep .stop).metrics.loopSamples = (capacity - 1) % 2 ^ 64 ∧
      (s.ownerStep .stop).queue.ring.dropped = calls % 2 ^ 64 ∧
      (s.ownerStep .stop).queue.completedPushes = capacity - 1 + calls := by
  obtain ⟨queue, accepted, dropped, completed, joining⟩ :=
    unread_joining capacity frame calls
  have inv : DrainInv recordUpdates (fun m update => MetricUpdate.apply m update)
      RecordedMetrics.start ((TelemetryWorker.init : TelemetryWorker K capacity).run
        (unreadTurns capacity frame calls 0)).drained := TelemetryWorker.inv _
  rw [joining] at inv
  let waiting : TelemetryWorker K capacity :=
    ⟨queue, false, .stopJoin, .loadRunning, RecordedMetrics.start⟩
  let own : List (QueueTurn (KinematicTelemetryFrame K)) :=
    List.replicate (DrainedQueue.work recordUpdates waiting.drained) .thread
  have enough : DrainedQueue.work recordUpdates waiting.drained ≤ own.countP QueueTurn.isThread := by
    simp [own, List.countP_replicate, QueueTurn.isThread]
  obtain ⟨before, after, split, waits, gone, kept⟩ := inv.thread_finishes rfl enough
  obtain ⟨turns, rfl⟩ : ∃ turns, before = List.replicate turns .thread :=
    ⟨_, (List.append_eq_replicate_iff.mp split.symm).2.1⟩
  have run : (TelemetryWorker.init : TelemetryWorker K capacity).run
      (unreadTurns capacity frame calls turns) = waiting.run (List.replicate turns .worker) := by
    simp only [waiting]
    rw [← joining]
    simp only [unreadTurns, List.replicate_zero, List.append_nil, TelemetryWorker.run,
      List.foldl_append]
  have drained := waiting.drained_run (List.replicate turns .worker)
  obtain ⟨sameDrops, sameTotal⟩ := run_workers_counts waiting turns
  rw [List.map_replicate] at drained
  rw [← run] at drained sameDrops sameTotal
  have owner := OwnerPc.place_stopJoin ((congrArg DrainedQueue.owner drained).trans waits)
  have worker := DrainPc.place_finished ((congrArg DrainedQueue.thread drained).trans gone)
  have held := (congrArg (fun s => s.queue.accepted) drained).trans kept
  have returned : (((TelemetryWorker.init : TelemetryWorker K capacity).run
      (unreadTurns capacity frame calls turns)).ownerStep .stop).owner = .idle := by
    rw [TelemetryWorker.ownerStep, owner, worker]
  obtain ⟨same, _, stopped, _⟩ := TelemetryWorker.stop_returned _ owner returned
  refine ⟨turns, owner, returned, ?_, ?_, ?_⟩
  · rw [stopped, recordedAfter_samples, recordAll_samples]
    exact congrArg (fun frames => List.length frames % 2 ^ 64) held |>.trans (by rw [← accepted]; rfl)
  · rw [same, sameDrops, dropped]
  · rw [same, sameTotal, completed]

/-- The account of the two counters, as plain numbers. -/
def PlainAccount (s : TelemetryWorker K capacity) : Prop :=
  s.metrics.loopSamples + s.queue.ring.dropped = s.queue.completedPushes

theorem unread_account (frame : KinematicTelemetryFrame K) (calls : Nat)
    (plain : ∀ (turns : List (WorkerTurn K)) (call : OwnerCall K),
      let s := (TelemetryWorker.init : TelemetryWorker K capacity).run turns
      s.owner = .stopJoin → (s.ownerStep call).owner = .idle → PlainAccount (s.ownerStep call)) :
    (capacity - 1) % 2 ^ 64 + calls % 2 ^ 64 = capacity - 1 + calls := by
  obtain ⟨turns, joining, returned, samples, dropped, completed⟩ :=
    unread_stopped capacity frame calls
  have counts := plain _ .stop joining returned
  rwa [PlainAccount, samples, dropped, completed] at counts

/-- After `2 ^ 64` drops the counter stands at zero again: the worker has recorded the frames
that filled the queue, and as many pushes as there were drops are in neither count. -/
theorem telemetry_account_wraps :
    ¬∀ (turns : List (WorkerTurn ℚ)) (call : OwnerCall ℚ),
      let s := (TelemetryWorker.init : TelemetryWorker ℚ 4096).run turns
      s.owner = .stopJoin → (s.ownerStep call).owner = .idle → PlainAccount (s.ownerStep call) := by
  intro plain
  have counts := unread_account ⟨0, .fin 10, .fin 0, .fin 1, 0⟩ (2 ^ 64) plain
  omega

end Wrapped

end NeuroKinetic
