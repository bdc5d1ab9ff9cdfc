import NeuroKinetic.HistogramExactness
import NeuroKinetic.SafetyEvents
import NeuroKinetic.ShutdownMetrics
import NeuroKinetic.SilentActions

open Binary32 HttpMessage Json OutputStream RidgeProjection

namespace NeuroKinetic

/-- How far the socket of one event gets; what a connected one takes of its request, no part
of it or all, is looked at by nobody. -/
inductive Link where
  | noSocket
  | refused
  | connected (taken : Nat)

/-- What leaves the process: a line on standard output, or what a local port gets of a request. -/
inductive Delivery where
  | printed (line : List Char)
  | posted (port : Nat) (taken : List Char)

/-- One access of `record`, or one of the two sends that it ends with. -/
inductive ExportAction (K : Type) where
  | metric (update : MetricUpdate K)
  | sendTrace (frame : KinematicTelemetryFrame K)
  | sendJson (frame : KinematicTelemetryFrame K)

/-- The metrics, the number of sockets tried and all that was delivered. -/
structure ExportState (K : Type) where
  metrics : RecordedMetrics K
  sends : Nat
  deliveries : List Delivery

section Exports

variable {K : Type} [Field K] [LinearOrder K] [FloorRing K]

def sendJsonEvent (link : Link) (frame : KinematicTelemetryFrame K) : List Delivery :=
  match link with
  | .noSocket => [.printed (fallbackBody frame)]
  | .refused => [.printed (lokiBody frame)]
  | .connected taken => [.posted 3100 ((lokiRequest frame).take taken)]

def sendTraceEvent (link : Link) (frame : KinematicTelemetryFrame K) : List Delivery :=
  match link with
  | .noSocket | .refused => []
  | .connected taken => [.posted 4318 ((traceRequest frame).take taken)]

/-- A frame with a safety flag, of which `record` exports an event. -/
def KinematicTelemetryFrame.breach (frame : KinematicTelemetryFrame K) : Bool :=
  decide (frame.safetyFlags ≠ 0)

variable [RoundedMul K]

/-- What `record` does with a frame: `export_safety_event` counts first and sends then. -/
def exportActions (frame : KinematicTelemetryFrame K) : List (ExportAction K) :=
  (recordUpdates frame).map .metric ++
    if frame.breach then [.sendTrace frame, .sendJson frame] else []

/-- The n-th socket gets as far as the outside lets it. -/
def ExportAction.apply (links : Nat → Link) (s : ExportState K) : ExportAction K → ExportState K
  | .metric update => { s with metrics := update.apply s.metrics }
  | .sendTrace frame =>
    { s with
      sends := s.sends + 1
      deliveries := s.deliveries ++ sendTraceEvent (links s.sends) frame }
  | .sendJson frame =>
    { s with
      sends := s.sends + 1
      deliveries := s.deliveries ++ sendJsonEvent (links s.sends) frame }

def ExportState.start : ExportState K := ⟨RecordedMetrics.start, 0, []⟩

/-- The worker together with what it sends. -/
abbrev ExportingWorker (K : Type) (capacity : Nat) : Type :=
  DrainedQueue (KinematicTelemetryFrame K) (ExportAction K) (ExportState K) capacity

variable {capacity : Nat} [NeZero capacity]

def ExportingWorker.init : ExportingWorker K capacity := DrainedQueue.init ExportState.start

def ExportingWorker.run (links : Nat → Link) (s : ExportingWorker K capacity)
    (turns : List (QueueTurn (KinematicTelemetryFrame K))) : ExportingWorker K capacity :=
  DrainedQueue.run exportActions (ExportAction.apply links) s turns

/-- The frames of the `try_push` calls that the turns begin. -/
def ExportingWorker.begun (links : Nat → Link) (s : ExportingWorker K capacity)
    (turns : List (QueueTurn (KinematicTelemetryFrame K))) : List (KinematicTelemetryFrame K) :=
  DrainedQueue.begun exportActions (ExportAction.apply links) s turns

end Exports

section Sends

variable {K : Type} [Field K] [LinearOrder K] [FloorRing K] (links : Nat → Link)

end Sends

section Readers

variable {K : Type} [Field K] [LinearOrder K] [FloorRing K] {words : List (List Char × Value)}

/-- A push to the log store that reads as the event of the frame: its message is a string
that is parsed once more. -/
def LokiTells (words : List (List Char × Value)) (frame : KinematicTelemetryFrame K)
    (body : List Char) : Prop :=
  ∃ message x, frame.loopDurationUs = .fin x ∧
    Parses words body (lokiDocument frame.timestampNs message).value ∧
    Parses words message (lineDocument frame.safetyFlags (decide (x < 0))
      (roundHalfEven (|x| * ((10 ^ 6 : Nat) : K)))).value

/-- What the far end of a link makes of a delivery tells of the frame: the line without a socket
and a trace of its time and flags, a push and the line after a refusal of its duration too. A
request that was cut is not received. -/
def Delivery.Tells (words : List (List Char × Value)) (frame : KinematicTelemetryFrame K) :
    Link → Delivery → Prop
  | .noSocket, .printed line =>
    Parses words line (fallbackDocument frame.timestampNs frame.safetyFlags).value
  | .refused, .printed line => LokiTells words frame line
  | .connected taken, .posted port sent => ∃ request lines body,
      sent = request.take taken ∧ (sent ≠ request → receive sent = none) ∧
      receive request = some (lines, body) ∧
      (port = 3100 ∧ LokiTells words frame body ∨
        port = 4318 ∧ Parses words body (traceDocument frame.timestampNs frame.safetyFlags).value)
  | _, _ => False

variable (dialect : Dialect words) {frame : KinematicTelemetryFrame K} {x : K}

include dialect

end Readers

section Worker

variable {K : Type} {capacity : Nat} [NeZero capacity] [Field K] [LinearOrder K] [FloorRing K]
  [RoundedMul K] (links : Nat → Link) (turns : List (QueueTurn (KinematicTelemetryFrame K)))

theorem ExportingWorker.inv : DrainInv exportActions (ExportAction.apply links) ExportState.start
    ((ExportingWorker.init : ExportingWorker K capacity).run links turns) :=
  (drainInv_init exportActions (ExportAction.apply links) ExportState.start).run turns

theorem ExportingWorker.accepted_begun :
    ((ExportingWorker.init : ExportingWorker K capacity).run links turns).queue.accepted.Sublist
      ((ExportingWorker.init : ExportingWorker K capacity).begun links turns) :=
  (List.sublist_append_left _ _).trans
    ((drainInv_init exportActions (ExportAction.apply links) ExportState.start).offered_run turns)

end Worker

section Counted

variable {K : Type}

variable [Field K] [LinearOrder K] [FloorRing K] [RoundedMul K]

end Counted

section Ticks

variable {K : Type} [Field K] [LinearOrder K] [FloorRing K]

variable [SquareRoot K] [ExactSolver K]

end Ticks

section Daemon

variable {K : Type} {capacity : Nat} [NeZero capacity] [Field K] [LinearOrder K]
  [IsStrictOrderedRing K] [FloorRing K] [RoundedMul K] [SquareRoot K] [ExactSolver K]
  {words : List (List Char × Value)}

end Daemon

section Refinement

variable {K : Type} {capacity : Nat} [NeZero capacity]

/-- The sends leave the metrics alone. -/
def ExportAction.metric? : ExportAction K → Option (MetricUpdate K)
  | .metric update => some update
  | .sendTrace _ | .sendJson _ => none

theorem WorkerTurn.queueTurn_surjective :
    Function.Surjective (WorkerTurn.queueTurn : WorkerTurn K → QueueTurn _) := by
  intro turn
  cases turn with
  | thread => exact ⟨.worker, rfl⟩
  | owner call =>
    cases call with
    | start => exact ⟨.owner .start, rfl⟩
    | push frame => exact ⟨.owner (.tryPush frame), rfl⟩
    | stop => exact ⟨.owner .stop, rfl⟩

variable [Field K] [LinearOrder K] [FloorRing K] [RoundedMul K]

theorem exportActions_metric (frame : KinematicTelemetryFrame K) :
    recordUpdates frame = (exportActions frame).filterMap ExportAction.metric? := by
  have metrics : ((recordUpdates frame).map ExportAction.metric).filterMap ExportAction.metric? =
      recordUpdates frame := by
    rw [List.filterMap_map]
    exact List.filterMap_some
  rw [exportActions, List.filterMap_append, metrics]
  split <;> exact (List.append_nil _).symm

/-- A worker that sends does to its queue and its metrics what one without sends does, in
fewer turns: whatever its sockets do, nothing of it is lost on the counters. -/
theorem exporting_refines (links : Nat → Link)
    (turns : List (QueueTurn (KinematicTelemetryFrame K))) :
    let s := (ExportingWorker.init : ExportingWorker K capacity).run links turns
    ∃ shown : List (WorkerTurn K), (shown.map WorkerTurn.queueTurn).Sublist turns ∧
      ((TelemetryWorker.init : TelemetryWorker K capacity).run shown).drained =
        s.seen ExportAction.metric? ExportState.metrics ∧
      (TelemetryWorker.init : TelemetryWorker K capacity).begun shown =
        (ExportingWorker.init : ExportingWorker K capacity).begun links turns := by
  intro s
  have through : SeenThrough ExportAction.metric? ExportState.metrics (ExportAction.apply links)
      fun m update => MetricUpdate.apply (K := K) m update := by
    intro state action
    cases action <;> rfl
  obtain ⟨seen, among, reached, begun⟩ := DrainedQueue.seen_run exportActions_metric through
    (ExportingWorker.init : ExportingWorker K capacity) turns
  obtain ⟨shown, rfl⟩ := List.map_surjective_iff.mpr WorkerTurn.queueTurn_surjective seen
  refine ⟨shown, among, ?_, begun⟩
  rw [TelemetryWorker.drained_run]
  exact reached.symm

end Refinement

section Refused

/-- The calls of a run of one tick, and the thread's turns until it is done, with its two
sends. -/
def oneEventTurns (frame : KinematicTelemetryFrame ℝ) :
    List (QueueTurn (KinematicTelemetryFrame ℝ)) :=
  (oneTickTurns frame).map WorkerTurn.queueTurn ++ List.replicate 2 .thread

instance (owner : OwnerAt (KinematicTelemetryFrame ℝ)) : Decidable (owner = .idle) :=
  match owner with
  | .idle => isTrue rfl
  | .startExchange | .startSpawn | .push _ | .stopExchange | .stopJoin => isFalse (by simp)

instance (owner : OwnerAt (KinematicTelemetryFrame ℝ)) : Decidable (owner = .stopJoin) :=
  match owner with
  | .stopJoin => isTrue rfl
  | .idle | .startExchange | .startSpawn | .push _ | .stopExchange => isFalse (by simp)

theorem exporting_refines_refused :
    ∃ shown : List (WorkerTurn ℝ),
      (shown.map WorkerTurn.queueTurn).Sublist (oneEventTurns refusedPush) ∧
      ((TelemetryWorker.init : TelemetryWorker ℝ 4096).run shown).drained =
        ((ExportingWorker.init : ExportingWorker ℝ 4096).run (fun _ => .refused)
          (oneEventTurns refusedPush)).seen ExportAction.metric? ExportState.metrics ∧
      (TelemetryWorker.init : TelemetryWorker ℝ 4096).begun shown =
        (ExportingWorker.init : ExportingWorker ℝ 4096).begun (fun _ => .refused)
          (oneEventTurns refusedPush) :=
  exporting_refines (fun _ => .refused) (oneEventTurns refusedPush)

end Refused

end NeuroKinetic
