import NeuroKinetic.BlackBox
import NeuroKinetic.IncidentReport
import NeuroKinetic.SpeedBound

open Json OutputStream RidgeProjection

namespace NeuroKinetic

section Runs

variable {K : Type} [Field K] [LinearOrder K] [FloorRing K] [SquareRoot K] [ExactSolver K]

/-- Runs of the daemon on one store: each starts afresh, by the steady clock of its
start, and goes on with the records of those before it. -/
def afterRuns (recorder : FlightRecorder) (runs : List (Int × List (RecordedInput K))) :
    FlightRecorder :=
  runs.foldl (fun recorder run =>
    (RecordingDaemon.run daemonObstacles ⟨daemonStart run.1, recorder⟩ run.2).recorder) recorder

def loggedRecords (runs : List (Int × List (RecordedInput K))) : List InterventionRecord :=
  runs.flatMap fun run => interventions daemonObstacles (daemonStart run.1) run.2

theorem afterRuns_recorder (recorder : FlightRecorder)
    (runs : List (Int × List (RecordedInput K))) :
    afterRuns recorder runs = recorder.logAll (loggedRecords runs) := by
  induction runs generalizing recorder with
  | nil => rfl
  | cons run rest ih =>
    rw [afterRuns, List.foldl_cons, loggedRecords, List.flatMap_cons, FlightRecorder.logAll,
      List.foldl_append]
    refine (ih _).trans ?_
    rw [RecordingDaemon.run_recorder]
    rfl

/-- A tick of one of the runs, from its own state, logs the record. -/
def LoggedBy (runs : List (Int × List (RecordedInput K))) (r : InterventionRecord)
    (s : DaemonState K) (observed : RecordedInput K) : Prop :=
  ∃ run ∈ runs, ∃ before later, run.2 = before ++ observed :: later ∧
    s = runTicks daemonObstacles (daemonStart run.1) (before.map RecordedInput.input) ∧
    tickRecord daemonObstacles s observed = some r

theorem exists_tick {obstacles : List (Obstacle K)} {s : DaemonState K} {r : InterventionRecord}
    {inputs : List (RecordedInput K)} (logged : r ∈ interventions obstacles s inputs) :
    ∃ before observed later, inputs = before ++ observed :: later ∧
      tickRecord obstacles (runTicks obstacles s (before.map RecordedInput.input)) observed =
        some r := by
  induction inputs generalizing s with
  | nil => cases logged
  | cons observed rest ih =>
    rcases List.mem_append.mp logged with here | there
    · exact ⟨[], observed, rest, rfl, Option.mem_toList.mp here⟩
    · obtain ⟨before, later, after, eq, found⟩ := ih there
      exact ⟨observed :: before, later, after, by rw [eq, List.cons_append], found⟩

theorem exists_loggedBy {runs : List (Int × List (RecordedInput K))} {r : InterventionRecord}
    (logged : r ∈ loggedRecords runs) : ∃ s observed, LoggedBy runs r s observed := by
  obtain ⟨run, member, inside⟩ := List.mem_flatMap.mp logged
  obtain ⟨before, observed, later, eq, found⟩ := exists_tick inside
  exact ⟨_, observed, run, member, before, later, eq, rfl, found⟩

end Runs

section Records

variable {K : Type} [Field K] [LinearOrder K] [SquareRoot K]

theorem runTicks_endEffector [ExactSolver K] (obstacles : List (Obstacle K)) (s : DaemonState K)
    (inputs : List (TickInput K)) :
    (runTicks obstacles s inputs).state.endEffectorPos = s.state.endEffectorPos := by
  induction inputs generalizing s with
  | nil => rfl
  | cons input rest ih => exact ih (tick obstacles s input).1

variable [IsStrictOrderedRing K]

omit [SquareRoot K] in
/-- A moderate number is printed as a number, once it is cast to single precision. -/
theorem finite_cast [FloorRing K] {x : K} (h : |x| ≤ 100) : Finite (Binary32.cast (.fin x)) := by
  have hundred : ((100 : ℕ) : K) < Binary32.pow2 (127 : ℕ) :=
    Binary32.natCast_lt_pow2 (by norm_num)
  exact Binary32.cast_lt (h.trans_lt hundred)

variable [LawfulSquareRoot K]

/-- The margin that the filter reports is moderate; it passes over a NaN. -/
theorem minMargin_moderate (limits : KinematicLimits K) (w : Watchdog) (input : TickInput K) :
    ∃ m, minMargin (tickCommand limits w input).limits daemonState.endEffectorPos
      daemonObstacles = .fin m ∧ |m| ≤ 100 := by
  have hundred : |(100 : K)| ≤ 100 := (abs_of_nonneg (by norm_num)).le
  by_cases unordered : input.command.UnorderedMargin
  · have installed : (tickCommand limits w input).limits.minObstacleDistance = .nan := by
      simp only [tickCommand, ingestCommand_margin_nan.mpr unordered, stdClamp_nan]
    refine ⟨100, ?_, hundred⟩
    simp only [minMargin, daemonObstacles, List.foldl_cons, List.foldl_nil, computeObstacleBarrier,
      daemon_obstacle_gap, installed]
    rfl
  · obtain ⟨margin, installed, least, most⟩ :=
      (tickCommand_marginInstalled limits w input).mpr unordered
    have near := daemon_obstacle_near (K := K)
    have nonneg : 0 ≤ SquareRoot.sqrt (0.0029 : K) := LawfulSquareRoot.sqrt_nonneg _ (by norm_num)
    simp only [minMargin, daemonObstacles, List.foldl_cons, List.foldl_nil, computeObstacleBarrier,
      daemon_obstacle_gap, installed, Ieee.fin_add_fin, Ieee.fin_sub_fin, Ieee.fin_lt_fin]
    split
    next =>
      refine ⟨_, rfl, abs_le.mpr ⟨?_, ?_⟩⟩
      · norm_num at near most ⊢
        linarith
      · norm_num at near least ⊢
        linarith
    next => exact ⟨100, rfl, hundred⟩

variable [ExactSolver K]

/-- What a tick reports of the barrier is a moderate number. -/
theorem tick_barrierMargin {s : DaemonState K} {q qDot : Fin DOF → K} (h : PlantSlow s q qDot)
    (endEffector : s.state.endEffectorPos = daemonState.endEffectorPos) (input : TickInput K) :
    ∃ m, (tick daemonObstacles s input).2.safety.barrierMargin = .fin m ∧ |m| ≤ 100 := by
  have standard := (h.arm.tickCommand s.watchdog input).standard
  rcases Ieee.allFinite?_cases (tickCommand s.limits s.watchdog input).nominalTorque with
    ⟨u, command⟩ | refused
  · obtain ⟨m, margin, moderate⟩ := minMargin_moderate s.limits s.watchdog input
    obtain ⟨intervened, answer⟩ := filterTorques_eq (standard.order q) qDot u
      s.state.endEffectorPos daemonObstacles
    have state : s.state =
        ⟨fun i => .fin (q i), fun i => .fin (qDot i), s.state.endEffectorPos⟩ := by
      rw [← h.plant.position, ← h.plant.velocity]
    refine ⟨m, ?_, moderate⟩
    simp only [tick, command]
    rw [state, answer]
    simp only [endEffector, margin]
  · refine ⟨0, ?_, by simp⟩
    simp only [tick, filterTorques, h.plant.position, h.plant.velocity, Ieee.allFinite?_fin,
      refused]
    rfl

/-- The command for joint 5, after the seqlock and the overrides, is a number in
single precision. -/
def CommandFinite [FloorRing K] (s : DaemonState K) (observed : RecordedInput K) : Prop :=
  Finite (Binary32.cast ((tickCommand s.limits s.watchdog observed.input).nominalTorque 5))

/-- Of an incident's floats only the commanded torque can be none. -/
theorem tickRecord_printable [FloorRing K] {s : DaemonState K} {q qDot : Fin DOF → K}
    (h : PlantSlow s q qDot) (endEffector : s.state.endEffectorPos = daemonState.endEffectorPos)
    {observed : RecordedInput K} {r : InterventionRecord}
    (logged : tickRecord daemonObstacles s observed = some r) :
    r.Printable ↔ CommandFinite s observed := by
  obtain ⟨m, margin, moderate⟩ := tick_barrierMargin h endEffector observed.input
  obtain ⟨torque, applied, full⟩ := h.applied daemonObstacles observed.input
  simp only [tickRecord] at logged
  split at logged
  next =>
    cases logged
    constructor
    · exact fun printable => printable.commandedJoint5Torque
    · intro finite
      refine ⟨?_, finite, ?_⟩
      · simp only [interventionRecord, margin]
        exact finite_cast moderate
      · simp only [interventionRecord, applied]
        exact finite_cast ((full 5).trans (by norm_num))
  next => cases logged

theorem loggedBy_printable [FloorRing K] {runs : List (Int × List (RecordedInput K))}
    {r : InterventionRecord} {s : DaemonState K} {observed : RecordedInput K}
    (logged : LoggedBy runs r s observed) : r.Printable ↔ CommandFinite s observed := by
  obtain ⟨run, _, before, later, _, rfl, found⟩ := logged
  obtain ⟨q, qDot, slow⟩ : ∃ q qDot, PlantSlow
      (runTicks daemonObstacles (daemonStart run.1) (before.map RecordedInput.input)) q qDot :=
    runTicks_slow (daemonStart_slow run.1) _
  exact tickRecord_printable slow (runTicks_endEffector _ _ _) found

end Records

section Reports

variable {K : Type} [Field K] [LinearOrder K] [FloorRing K] [SquareRoot K] [ExactSolver K]

/-- The reader visits nothing but records of the runs. -/
theorem afterRuns_visits (runs : List (Int × List (RecordedInput K))) :
    ∃ after, afterRuns ⟨some ∅⟩ runs = ⟨some after⟩ ∧
      ∀ i ∈ readIncidents after, ∃ r ∈ loggedRecords runs, i = r.incident := by
  have logged := FlightRecorder.logAll_eq ∅ (loggedRecords runs)
  obtain ⟨sorted, _, among, _, visited⟩ := exists_visited logged
  refine ⟨_, (afterRuns_recorder _ runs).trans logged, fun i member => ?_⟩
  rw [visited] at member
  obtain ⟨r, inside, rfl⟩ := List.mem_map.mp member
  exact ⟨r, among r (List.mem_of_mem_take inside), rfl⟩

variable [IsStrictOrderedRing K] [LawfulSquareRoot K] {words : List (List Char × Value)}

/-- The report on the store of any runs is readable if and only if every incident in it
was logged under a finite command for joint 5; else no parser takes it. -/
theorem incident_report_readable_iff (dialect : Dialect words)
    (runs : List (Int × List (RecordedInput K))) :
    Readable words none ∧ ∃ after, afterRuns ⟨some ∅⟩ runs = ⟨some after⟩ ∧
      (Readable words (some after) ↔ ∀ i ∈ readIncidents after, ∀ s observed,
        LoggedBy runs i.record s observed → CommandFinite s observed) ∧
      ((∃ v, Parses words (incidentReport (some after)) v) ↔ Readable words (some after)) := by
  obtain ⟨after, recorder, visits⟩ := afterRuns_visits runs
  have records : VisitsRecords after := fun i visited =>
    (visits i visited).imp fun r found => found.2
  obtain ⟨readable, parsed⟩ := report_parses_iff dialect records
  refine ⟨readable_unopened, after, recorder, readable.trans ⟨?_, ?_⟩,
    parsed.trans readable.symm⟩
  · intro printable i visited s observed logged
    exact (loggedBy_printable logged).mp (printable i visited)
  · intro commands i visited
    obtain ⟨r, inside, rfl⟩ := visits i visited
    obtain ⟨s, observed, logged⟩ := exists_loggedBy inside
    exact (loggedBy_printable logged).mpr (commands _ visited s observed logged)

end Reports

section Unreadable

/-- One frame of NaN torques. -/
def unorderedRun : List (Int × List (RecordedInput ℝ)) := [(0, [unorderedFrame 0 1 2 7])]

theorem incident_report_readable_iff_unordered :
    Readable pythonWords none ∧ ∃ after, afterRuns ⟨some ∅⟩ unorderedRun = ⟨some after⟩ ∧
      (Readable pythonWords (some after) ↔ ∀ i ∈ readIncidents after, ∀ s observed,
        LoggedBy unorderedRun i.record s observed → CommandFinite s observed) ∧
      ((∃ v, Parses pythonWords (incidentReport (some after)) v) ↔
        Readable pythonWords (some after)) :=
  incident_report_readable_iff (Or.inr rfl) unorderedRun

theorem not_finite_cast_nan {K : Type} [Field K] [LinearOrder K] [FloorRing K] :
    ¬Finite (Binary32.cast (.nan : Ieee K)) := by
  simp only [Binary32.cast, Binary32.encode, Option.getD_some]
  decide

/-- The record of that frame, by the fallback, spoils the report for either parser. -/
theorem unordered_command_unreadable :
    ∃ after, afterRuns ⟨some ∅⟩ unorderedRun = ⟨some after⟩ ∧ (readIncidents after).length = 1 ∧
      ∀ words, Dialect words → ¬Readable words (some after) ∧
        ∀ v, ¬Parses words (incidentReport (some after)) v := by
  have unordered : (tickCommand daemonLimits (Watchdog.start 0)
      (unorderedFrame 0 1 2 7).input).nominalTorque = fun _ => .nan := by
    simp [tickCommand, unorderedFrame, Watchdog.start, Watchdog.evaluate, ingestCommand]
  obtain ⟨r, record, _, _⟩ := tickRecord_unordered daemonObstacles (daemonStart 0)
    (unorderedFrame 0 1 2 7) unordered
  have broken : ¬r.Printable := by
    rw [tickRecord_printable (daemonStart_slow 0) rfl record, CommandFinite]
    simp only [daemonStart, unordered]
    exact not_finite_cast_nan
  have records : loggedRecords unorderedRun = [r] := by
    simp only [loggedRecords, unorderedRun, List.flatMap_cons, List.flatMap_nil, interventions,
      record, Option.toList, List.append_nil]
  obtain ⟨after, recorder, visits⟩ := afterRuns_visits unorderedRun
  have visited : readIncidents after = [r.incident] := by
    rw [afterRuns_recorder, records] at recorder
    exact visited_singleton recorder
  refine ⟨after, recorder, congrArg List.length visited, fun words dialect => ?_⟩
  have unparsable : ∀ v, ¬Parses words (incidentReport (some after)) v :=
    report_unparsable dialect (fun i inside => (visits i inside).imp fun _ found => found.2)
      (visited ▸ List.mem_cons_self) broken
  refine ⟨?_, unparsable⟩
  rintro ⟨items, _, parsed⟩
  exact unparsable _ parsed

end Unreadable

end NeuroKinetic
