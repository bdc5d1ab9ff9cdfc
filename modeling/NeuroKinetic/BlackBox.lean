import NeuroKinetic.Daemon
import NeuroKinetic.IncidentLog
import NeuroKinetic.Library.Binary32
import NeuroKinetic.RealArithmetic
import NeuroKinetic.SolverExits

open RidgeProjection

namespace NeuroKinetic

/-- The daemon with its recorder. -/
structure RecordingDaemon (K : Type) where
  daemon : DaemonState K
  recorder : FlightRecorder

/-- What a tick observes, and then its reading of the system clock in nanoseconds. -/
structure RecordedInput (K : Type) where
  input : TickInput K
  systemClock : Int

section Run

variable {K : Type} [Field K] [LinearOrder K] [FloorRing K]

def interventionRecord (tickCount : Nat) (systemClock : Int) (watchdogTripped : Bool)
    (output : TickOutput K) : InterventionRecord where
  sequenceNumber := BitVec.ofNat 64 tickCount
  timestampNs := BitVec.ofInt 64 systemClock
  barrierMargin := Binary32.cast output.safety.barrierMargin
  commandedJoint5Torque := Binary32.cast (output.nominalTorque 5)
  safeJoint5Torque := Binary32.cast (output.safety.safeTorque 5)
  activeMask := if watchdogTripped then 2 else 1

variable [SquareRoot K] [ExactSolver K] (obstacles : List (Obstacle K))

/-- The record that a tick logs, if it reports an intervention. -/
def tickRecord (s : DaemonState K) (observed : RecordedInput K) : Option InterventionRecord :=
  let after := tick obstacles s observed.input
  if after.2.safety.interventionTriggered then
    some (interventionRecord s.tickCount observed.systemClock after.1.watchdog.tripped after.2)
  else none

def RecordingDaemon.step (s : RecordingDaemon K) (observed : RecordedInput K) : RecordingDaemon K :=
  ⟨(tick obstacles s.daemon observed.input).1,
    match tickRecord obstacles s.daemon observed with
    | some r => (s.recorder.logCbfIntervention r).1
    | none => s.recorder⟩

def RecordingDaemon.run (s : RecordingDaemon K) (inputs : List (RecordedInput K)) :
    RecordingDaemon K :=
  inputs.foldl (RecordingDaemon.step obstacles) s

/-- The records of a run's interventions, in the order of their ticks. -/
def interventions (s : DaemonState K) : List (RecordedInput K) → List InterventionRecord
  | [] => []
  | observed :: rest =>
    (tickRecord obstacles s observed).toList ++
      interventions (tick obstacles s observed.input).1 rest

theorem RecordingDaemon.run_recorder (s : RecordingDaemon K) (inputs : List (RecordedInput K)) :
    (s.run obstacles inputs).recorder =
      s.recorder.logAll (interventions obstacles s.daemon inputs) := by
  induction inputs generalizing s with
  | nil => rfl
  | cons observed rest ih =>
    have next := ih (s.step obstacles observed)
    rw [RecordingDaemon.run, List.foldl_cons]
    refine next.trans ?_
    rw [interventions, FlightRecorder.logAll, FlightRecorder.logAll, List.foldl_append]
    simp only [RecordingDaemon.step]
    cases tickRecord obstacles s.daemon observed with
    | none => rfl
    | some r => rfl

end Run

section Complete

/-- Two incidents are in one order by tick and by clock, and in no point alike. -/
def InterventionRecord.Agree (a b : InterventionRecord) : Prop :=
  (a.timestampNs.toNat < b.timestampNs.toNat ∧ a.sequenceNumber.toNat < b.sequenceNumber.toNat) ∨
    (b.timestampNs.toNat < a.timestampNs.toNat ∧ b.sequenceNumber.toNat < a.sequenceNumber.toNat)

theorem InterventionRecord.Agree.symm {a b : InterventionRecord} (h : a.Agree b) : b.Agree a :=
  h.elim Or.inr Or.inl

/-- Backwards over the keys of a run: the records found there. -/
def runRecords (cf : ColumnFamily) (records : List InterventionRecord) : List InterventionRecord :=
  (writtenEntries cf records).map fun entry => InterventionRecord.ofBytes entry.2

/-- Every record of the run is in the store for itself, in decreasing sequence. -/
structure BlackBoxComplete (cf : ColumnFamily) (records : List InterventionRecord) : Prop where
  own : (records.map InterventionRecord.sequenceNumber).Subperm
    ((runRecords cf records).map InterventionRecord.sequenceNumber)
  decreasing : (runRecords cf records).Pairwise fun a b =>
    b.sequenceNumber.toNat < a.sequenceNumber.toNat

variable {cf after : ColumnFamily} {records : List InterventionRecord}

theorem blackBoxComplete_iff_agree
    (logged : FlightRecorder.logAll ⟨some cf⟩ records = ⟨some after⟩) :
    BlackBoxComplete after records ↔ records.Pairwise InterventionRecord.Agree := by
  obtain ⟨sorted, entries, _, newer, timestamps⟩ := exists_written logged
  have found : runRecords after records = sorted := by
    rw [runRecords, entries, List.map_map]
    exact List.map_id'' (fun r => r.ofBytes_toBytes) sorted
  constructor
  · rintro ⟨own, decreasing⟩
    rw [found] at own decreasing
    have distinct : (records.map InterventionRecord.timestampNs).Nodup := by
      have many := own.length_le
      have few := timestamps.length_eq
      rw [List.length_map, List.length_map] at many
      rw [List.length_map] at few
      have whole : (records.map InterventionRecord.timestampNs).dedup =
          records.map InterventionRecord.timestampNs :=
        (List.dedup_sublist _).eq_of_length_le (by rw [List.length_map]; omega)
      exact List.dedup_eq_self.mp whole
    have perm := perm_of_nodup logged entries distinct
    have agree : sorted.Pairwise InterventionRecord.Agree :=
      (newer.and decreasing).imp fun ⟨newer, later⟩ => Or.inr ⟨newer, later⟩
    exact (perm.pairwise_iff fun h => h.symm).mp agree
  · intro agree
    have distinct : (records.map InterventionRecord.timestampNs).Nodup := by
      refine List.pairwise_map.mpr (agree.imp fun {a b} h same => ?_)
      rw [InterventionRecord.Agree, same] at h
      omega
    have perm := perm_of_nodup logged entries distinct
    refine ⟨?_, ?_⟩
    · rw [found]
      exact (perm.symm.map _).subperm
    · rw [found]
      have agree := (perm.pairwise_iff fun h => h.symm).mpr agree
      refine (newer.and agree).imp fun {a b} ⟨newer, agree⟩ => ?_
      rcases agree with ⟨older, _⟩ | ⟨_, later⟩
      · exact absurd newer (Nat.lt_asymm older)
      · exact later

end Complete

section Ticks

variable {K : Type} [Field K] [LinearOrder K] [FloorRing K] [SquareRoot K] [ExactSolver K]
  (obstacles : List (Obstacle K))

theorem tickRecord_sequence {s : DaemonState K} {observed : RecordedInput K}
    {r : InterventionRecord} (h : tickRecord obstacles s observed = some r) :
    r.sequenceNumber = BitVec.ofNat 64 s.tickCount := by
  simp only [tickRecord] at h
  split at h
  next =>
    cases h
    rfl
  next => cases h

/-- As long as the tick counter does not wrap, the records' sequence increases. -/
theorem interventions_increasing {s : DaemonState K} {inputs : List (RecordedInput K)}
    (room : s.tickCount + inputs.length < 2 ^ 64) :
    ((interventions obstacles s inputs).Pairwise fun a b =>
        a.sequenceNumber.toNat < b.sequenceNumber.toNat) ∧
      ∀ r ∈ interventions obstacles s inputs, s.tickCount ≤ r.sequenceNumber.toNat := by
  induction inputs generalizing s with
  | nil => exact ⟨List.Pairwise.nil, by simp [interventions]⟩
  | cons observed rest ih =>
    rw [List.length_cons] at room
    have count : (tick obstacles s observed.input).1.tickCount = s.tickCount + 1 :=
      Nat.mod_eq_of_lt (by omega)
    obtain ⟨increasing, later⟩ := ih (s := (tick obstacles s observed.input).1) (by omega)
    rw [count] at later
    rw [interventions]
    cases record : tickRecord obstacles s observed with
    | none => exact ⟨increasing, fun r member => (later r member).trans' (Nat.le_succ _)⟩
    | some first =>
      have number : first.sequenceNumber.toNat = s.tickCount := by
        rw [tickRecord_sequence obstacles record, BitVec.toNat_ofNat]
        exact Nat.mod_eq_of_lt (by omega)
      refine ⟨List.pairwise_cons.mpr ⟨fun r member => ?_, increasing⟩, fun r member => ?_⟩
      · have := later r member
        omega
      · rcases List.mem_cons.mp member with rfl | member
        · exact number.ge
        · have := later r member
          omega

/-- In a run without wrapping, that is what a clock gives that moves forward from
every intervention to the next. -/
theorem interventions_agree_iff {s : DaemonState K} {inputs : List (RecordedInput K)}
    (room : s.tickCount + inputs.length < 2 ^ 64) :
    (interventions obstacles s inputs).Pairwise InterventionRecord.Agree ↔
      (interventions obstacles s inputs).Pairwise fun a b =>
        a.timestampNs.toNat < b.timestampNs.toNat := by
  have increasing := (interventions_increasing obstacles room).1
  constructor
  · intro agree
    refine (increasing.and agree).imp fun {a b} ⟨before, agree⟩ => ?_
    rcases agree with ⟨newer, _⟩ | ⟨_, after⟩
    · exact newer
    · omega
  · intro newer
    exact (increasing.and newer).imp fun {a b} ⟨before, newer⟩ => Or.inl ⟨newer, before⟩

end Ticks

/-- After any run on an opened store the black box is complete if and only if the
clock orders the interventions the way their ticks do. -/
theorem black_box_complete_iff {K : Type} [Field K] [LinearOrder K] [FloorRing K] [SquareRoot K]
    [ExactSolver K] (obstacles : List (Obstacle K)) (now : Int) (cf : ColumnFamily)
    (inputs : List (RecordedInput K)) :
    ∃ after, (RecordingDaemon.run obstacles ⟨daemonStart now, ⟨some cf⟩⟩ inputs).recorder =
        ⟨some after⟩ ∧
      (BlackBoxComplete after (interventions obstacles (daemonStart now) inputs) ↔
        (interventions obstacles (daemonStart now) inputs).Pairwise InterventionRecord.Agree) := by
  have recorder := RecordingDaemon.run_recorder obstacles ⟨daemonStart now, ⟨some cf⟩⟩ inputs
  rw [FlightRecorder.logAll_eq] at recorder
  exact ⟨_, recorder, blackBoxComplete_iff_agree (FlightRecorder.logAll_eq cf _)⟩

section Overwritten

theorem filterTorques_unordered {K : Type} [Field K] [LinearOrder K] [SquareRoot K] [ExactSolver K]
    (limits : KinematicLimits K) (state : ManipulatorState K) (obstacles : List (Obstacle K)) :
    filterTorques limits state (fun _ => .nan) obstacles = .error .invalidState := by
  have unordered : Ieee.allFinite? (fun _ : Fin DOF => (.nan : Ieee K)) = none := by
    simp [Ieee.allFinite?, Ieee.toFinite?]
  exact filterTorques_invalid limits obstacles (Or.inr (Or.inr unordered))

/-- Such a command is an incident by the fallback. -/
theorem tickRecord_unordered {K : Type} [Field K] [LinearOrder K] [FloorRing K] [SquareRoot K]
    [ExactSolver K] (obstacles : List (Obstacle K)) (s : DaemonState K) (observed : RecordedInput K)
    (unordered : (tickCommand s.limits s.watchdog observed.input).nominalTorque = fun _ => .nan) :
    ∃ r, tickRecord obstacles s observed = some r ∧
      r.sequenceNumber = BitVec.ofNat 64 s.tickCount ∧
      r.timestampNs = BitVec.ofInt 64 observed.systemClock := by
  have safety : (tick obstacles s observed.input).2.safety = fallbackOutput := by
    simp only [tick, unordered, filterTorques_unordered]
  have logged : tickRecord obstacles s observed = some (interventionRecord s.tickCount
      observed.systemClock (tick obstacles s observed.input).1.watchdog.tripped
      (tick obstacles s observed.input).2) := by
    simp only [tickRecord, safety, fallbackOutput, if_true]
  exact ⟨_, logged, rfl, rfl⟩

/-- A frame of unordered torques, with its heartbeat. -/
def unorderedFrame (tickStart : Int) (heartbeat seq : Nat) (systemClock : Int) :
    RecordedInput ℝ :=
  ⟨⟨tickStart, heartbeat, seq, fun _ => .nan, 1, .fin 0.08, seq⟩, systemClock⟩

/-- Two such frames at one reading of the clock. -/
def sameReadingInputs : List (RecordedInput ℝ) :=
  [unorderedFrame 0 1 2 7, unorderedFrame 2000000 2 4 7]

theorem incident_overwritten :
    ∃ after, (RecordingDaemon.run daemonObstacles ⟨daemonStart 0, ⟨some ∅⟩⟩
        sameReadingInputs).recorder = ⟨some after⟩ ∧
      (interventions daemonObstacles (daemonStart 0) sameReadingInputs).map
        InterventionRecord.sequenceNumber = [0, 1] ∧
      ¬BlackBoxComplete after
        (interventions daemonObstacles (daemonStart 0) sameReadingInputs) := by
  let second := (tick daemonObstacles (daemonStart 0) (unorderedFrame 0 1 2 7).input).1
  obtain ⟨first, firstRecord, firstNumber, firstReading⟩ :=
    tickRecord_unordered daemonObstacles (daemonStart 0) (unorderedFrame 0 1 2 7)
      (by simp [tickCommand, unorderedFrame, daemonStart, Watchdog.start, Watchdog.evaluate,
        ingestCommand])
  obtain ⟨last, lastRecord, lastNumber, lastReading⟩ :=
    tickRecord_unordered daemonObstacles second (unorderedFrame 2000000 2 4 7)
      (by simp [second, tick, tickCommand, unorderedFrame, daemonStart, Watchdog.start,
        Watchdog.evaluate, ingestCommand])
  have records : interventions daemonObstacles (daemonStart 0) sameReadingInputs =
      [first, last] := by
    simp only [sameReadingInputs, interventions, firstRecord, lastRecord, second, Option.toList,
      List.append_nil, List.cons_append, List.nil_append]
  have logged := RecordingDaemon.run_recorder daemonObstacles ⟨daemonStart 0, ⟨some ∅⟩⟩
    sameReadingInputs
  rw [FlightRecorder.logAll_eq] at logged
  refine ⟨_, logged, ?_, ?_⟩
  · rw [records, List.map_cons, List.map_cons, List.map_nil, firstNumber, lastNumber]
    rfl
  · rw [blackBoxComplete_iff_agree (FlightRecorder.logAll_eq ∅ _), records]
    intro agree
    have apart := List.rel_of_pairwise_cons agree List.mem_cons_self
    rw [InterventionRecord.Agree, firstReading, lastReading] at apart
    exact apart.elim (fun h => absurd h.1 (Nat.lt_irrefl _)) fun h => absurd h.1 (Nat.lt_irrefl _)

end Overwritten

end NeuroKinetic
