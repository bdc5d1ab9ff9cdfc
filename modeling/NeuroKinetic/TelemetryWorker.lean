import NeuroKinetic.Kernel
import NeuroKinetic.RingBufferAccounting
import Mathlib.Algebra.Order.Floor.Semiring

namespace NeuroKinetic

structure KinematicTelemetryFrame (K : Type) where
  timestampNs : Nat
  loopDurationUs : Ieee K
  conditionNumber : Ieee K
  maxTorqueSaturationRatio : Ieee K
  safetyFlags : Nat

instance emptyFrame {K : Type} [Zero K] : Inhabited (KinematicTelemetryFrame K) :=
  ⟨⟨0, .fin 0, .fin 0, .fin 0, 0⟩⟩

/-- The worker's atomic counters and gauges. -/
structure RecordedMetrics (K : Type) where
  loopSamples : Nat
  loopSumUs : Nat
  loopBuckets : Fin 6 → Nat
  conditionNumber : Ieee K
  torqueRatio : Ieee K
  safetyViolations : Fin 3 → Nat
  exportedEvents : Nat

/-- One atomic access of `record`. -/
inductive MetricUpdate (K : Type) where
  | sample
  | sum (milliUs : Nat)
  | bucket (index : Fin 6)
  | conditionNumber (value : Ieee K)
  | torqueRatio (value : Ieee K)
  | violation (index : Fin 3)
  | exported

def RecordedMetrics.start {K : Type} [Zero K] : RecordedMetrics K :=
  ⟨0, 0, fun _ => 0, .fin 0, .fin 0, fun _ => 0, 0⟩

def fetchAdd (counter n : Nat) : Nat := (counter + n) % 2 ^ 64

def MetricUpdate.apply {K : Type} (m : RecordedMetrics K) : MetricUpdate K → RecordedMetrics K
  | .sample => { m with loopSamples := fetchAdd m.loopSamples 1 }
  | .sum milliUs => { m with loopSumUs := fetchAdd m.loopSumUs milliUs }
  | .bucket index =>
    { m with loopBuckets := Function.update m.loopBuckets index (fetchAdd (m.loopBuckets index) 1) }
  | .conditionNumber value => { m with conditionNumber := value }
  | .torqueRatio value => { m with torqueRatio := value }
  | .violation index =>
    { m with safetyViolations :=
        Function.update m.safetyViolations index (fetchAdd (m.safetyViolations index) 1) }
  | .exported => { m with exportedEvents := fetchAdd m.exportedEvents 1 }

section Record

variable {K : Type} [Field K] [LinearOrder K]

def loopBounds : List Nat := [50, 100, 250, 500, 1000]

/-- The first bucket whose bound the duration does not exceed, else the last. -/
def loopBucket (duration : Ieee K) : Fin 6 :=
  ⟨loopBounds.findIdx fun bound : Nat => decide (duration ≤ .fin (bound : K)),
    Nat.lt_succ_of_le List.findIdx_le_length⟩

/-- `static_cast<uint64_t>`, which the language leaves undefined for values that
do not fit. -/
def toUint64 [FloorSemiring K] : Ieee K → Nat
  | .fin x => ⌊x⌋₊
  | _ => 0

/-- The accesses of `record`, in program order; an event is exported for every
frame with a safety flag. -/
def recordUpdates [FloorSemiring K] [RoundedMul K] (frame : KinematicTelemetryFrame K) :
    List (MetricUpdate K) :=
  [.sample, .sum (toUint64 (RoundedMul.single frame.loopDurationUs (.fin ((1000 : Nat) : K)))),
    .bucket (loopBucket frame.loopDurationUs), .conditionNumber frame.conditionNumber,
    .torqueRatio frame.maxTorqueSaturationRatio] ++
  if frame.safetyFlags ≠ 0 then
    (if frame.safetyFlags &&& 1 ≠ 0 then [.violation 0] else []) ++
    (if frame.safetyFlags &&& 2 ≠ 0 then [.violation 1] else []) ++
    (if frame.safetyFlags &&& 4 ≠ 0 then [.violation 2] else []) ++ [.exported]
  else []

end Record

/-- Where the owner thread stands in `start`, `try_push` or `stop`. -/
inductive OwnerPc (K : Type) where
  | idle
  | startExchange
  | startSpawn
  | push (frame : KinematicTelemetryFrame K)
  | stopExchange
  | stopJoin

/-- Where `drain_loop` stands; `draining` tells its second loop from its first. -/
inductive DrainPc (K : Type) where
  | none
  | loadRunning
  | pop (draining : Bool)
  | record (draining : Bool) (pending : List (MetricUpdate K))
  | finished

structure TelemetryWorker (K : Type) (capacity : Nat) where
  queue : SpscState (KinematicTelemetryFrame K) capacity
  running : Bool
  owner : OwnerPc K
  worker : DrainPc K
  metrics : RecordedMetrics K

/-- The calls of the owner; the destructor is a `stop`. -/
inductive OwnerCall (K : Type) where
  | start
  | tryPush (frame : KinematicTelemetryFrame K)
  | stop

/-- Whose step comes next; an owner that is idle begins the call. -/
inductive WorkerTurn (K : Type) where
  | owner (call : OwnerCall K)
  | worker

section Step

variable {K : Type} {capacity : Nat} [NeZero capacity]

def TelemetryWorker.init [Zero K] : TelemetryWorker K capacity :=
  ⟨SpscState.start, false, .idle, .none, RecordedMetrics.start⟩

def TelemetryWorker.pushStep (s : TelemetryWorker K capacity) (frame : KinematicTelemetryFrame K) :
    TelemetryWorker K capacity :=
  let owner := match s.queue.producer with
    | .return _ => .idle
    | _ => .push frame
  { s with queue := s.queue.producerStep frame, owner := owner }

/-- A join waits: it has no step until the worker has finished. -/
def TelemetryWorker.ownerStep (s : TelemetryWorker K capacity) (call : OwnerCall K) :
    TelemetryWorker K capacity :=
  match s.owner with
  | .idle =>
    match call with
    | .start => { s with owner := .startExchange }
    | .tryPush frame => s.pushStep frame
    | .stop => { s with owner := .stopExchange }
  | .startExchange =>
    if s.running then { s with owner := .idle }
    else { s with running := true, owner := .startSpawn }
  | .startSpawn => { s with worker := .loadRunning, owner := .idle }
  | .push frame => s.pushStep frame
  | .stopExchange =>
    if s.running then { s with running := false, owner := .stopJoin }
    else { s with owner := .idle }
  | .stopJoin =>
    match s.worker with
    | .finished => { s with worker := .none, owner := .idle }
    | _ => s

variable [Field K] [LinearOrder K] [FloorSemiring K] [RoundedMul K]

def TelemetryWorker.drainStep (s : TelemetryWorker K capacity) : TelemetryWorker K capacity :=
  match s.worker with
  | .loadRunning => { s with worker := .pop (!s.running) }
  | .pop draining =>
    let worker := match s.queue.popResult with
      | none => .pop draining
      | some none => if draining then .finished else .loadRunning
      | some (some frame) => .record draining (recordUpdates frame)
    { s with queue := s.queue.consumerStep, worker := worker }
  | .record draining (update :: rest) =>
    { s with metrics := update.apply s.metrics, worker := .record draining rest }
  | .record draining [] => { s with worker := if draining then .pop true else .loadRunning }
  | .none | .finished => s

def TelemetryWorker.step (s : TelemetryWorker K capacity) : WorkerTurn K → TelemetryWorker K capacity
  | .owner call => s.ownerStep call
  | .worker => s.drainStep

def TelemetryWorker.run (s : TelemetryWorker K capacity) (turns : List (WorkerTurn K)) :
    TelemetryWorker K capacity :=
  turns.foldl TelemetryWorker.step s

end Step

end NeuroKinetic
