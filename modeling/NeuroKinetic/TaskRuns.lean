import NeuroKinetic.ByteRuns
import NeuroKinetic.FleetRuns
import NeuroKinetic.LatestRequest
import NeuroKinetic.Library.Magnitudes
import NeuroKinetic.ReadingWords
import NeuroKinetic.TrajectoryChunk

open Binary32 Ieee RidgeProjection

namespace NeuroKinetic

/-- Where `execute_task` stands: the call that comes next, and what it still needs of what was
read. -/
inductive TaskPc (K : Type) where
  | readInitial
  | dispatch (idx : Nat) (setpoint : Fin DOF → Ieee K) (rest : List (Fin DOF → Ieee K))
      (currentPos : Fin DOF → Ieee K)
  | readLive (idx : Nat) (rest : List (Fin DOF → Ieee K))
  | readFinal
  | done
  | raised

/-- What the planner calls of numpy: `linspace(0.0, 1.0, num)` and `clip`. -/
structure Numpy (K : Type) where
  linspace : Nat → List (Ieee K)
  clip : Ieee K → Ieee K → Ieee K → Ieee K

/-- What is documented of it: that many samples of the interval, and a number outside of the
bounds becomes the bound that it passes. -/
structure Numpy.Documented {K : Type} [Field K] [LinearOrder K] (numpy : Numpy K) : Prop where
  count : ∀ num, (numpy.linspace num).length = num
  samples : ∀ num, ∀ t ∈ numpy.linspace num, ∃ x, t = .fin x ∧ 0 ≤ x ∧ x ≤ 1
  clipped : ∀ x low high : K, low ≤ high →
    numpy.clip (.fin x) (.fin low) (.fin high) = .fin (max low (min x high))

section Planner

-- `double` rounds the result of one operation to a 64-bit float
variable {K : Type} [Field K] [LinearOrder K] (numpy : Numpy K) (double : Ieee K → Ieee K)

def sCurveEntry (t : Ieee K) : Ieee K :=
  double (double (.fin ((3 : Nat) : K) * double (t * t)) -
    double (.fin ((2 : Nat) : K) * double (t * t * t)))

def waypointJoint (s start target : Ieee K) : Ieee K :=
  double (start + double (s * double (target - start)))

/-- A target with less than seven entries raises an `IndexError`. -/
def planSetpoints (start : Fin DOF → Ieee K) (target : List (Ieee K)) (steps : Nat) :
    Option (List (Fin DOF → Ieee K)) :=
  ((numpy.linspace steps).map (sCurveEntry double)).mapM fun s =>
    if DOF ≤ target.length then
      some fun j => waypointJoint double s (start j) (target.getD j (.fin 0))
    else none

/-- The task prints its prompt before its first call. -/
def TaskPc.ingest (prompt : PyStr) : TaskPc K :=
  match printLine (.ofString "  Task Ingestion: '" ++ prompt ++ .ofString "'") with
  | .ok () => .readInitial
  | .error _ => .raised

/-- The head of the loop over the setpoints. -/
def TaskPc.loop (idx : Nat) (setpoints : List (Fin DOF → Ieee K)) (currentPos : Fin DOF → Ieee K) :
    TaskPc K :=
  match setpoints with
  | [] => .readFinal
  | setpoint :: rest => .dispatch idx setpoint rest currentPos

def taskTorque (setpoint current : Ieee K) : Ieee K :=
  numpy.clip (double (double (setpoint - current) * .fin ((45 : Nat) : K)))
    (.fin (-((80 : Nat) : K))) (.fin ((80 : Nat) : K))

/-- A hazard is injected after the thirteenth setpoint. -/
def taskTorques (idx : Nat) (setpoint currentPos : Fin DOF → Ieee K) : List (Ieee K) :=
  let torques := (List.finRange DOF).map fun j => taskTorque numpy double (setpoint j) (currentPos j)
  if 12 < idx then torques.set 5 (.fin ((42 : Nat) : K)) else torques

def TaskPc.call : TaskPc K → Option (ClientCall K)
  | .readInitial | .readLive .. | .readFinal => some .readTelemetry
  | .dispatch idx setpoint _ currentPos =>
    some (.dispatchVlaTorque (taskTorques numpy double idx setpoint currentPos) (.fin 0.08) (.fin 15))
  | .done | .raised => none

/-- What the answer to a call makes of the task. -/
def TaskPc.resume (target : List (Ieee K)) (answer : Answer K) : TaskPc K → TaskPc K
  | .readInitial =>
    match answer with
    | .dictionary reading =>
      match planSetpoints numpy double reading.positions target 30 with
      | none => .raised
      | some chunk => .loop 0 chunk reading.positions
    | _ => .raised
  | .dispatch idx _ rest _ =>
    match answer with
    | .returned => .readLive idx rest
    | _ => .raised
  | .readLive idx rest =>
    match answer with
    | .dictionary reading => .loop (idx + 1) rest reading.positions
    | _ => .raised
  | .readFinal =>
    match answer with
    | .dictionary _ => .done
    | _ => .raised
  | pc => pc

end Planner

/-- The system of the planner, its daemon and the other clients, and what the task has
dispatched. -/
structure TaskSystem (ι K : Type) where
  system : FieldSystem (Option ι) K
  task : TaskPc K
  dispatched : List (List (Ieee K))

/-- A turn is the planner's next call, or what happens outside of it. -/
inductive TaskTurn (ι K : Type) where
  | planner (time : Int)
  | outside (event : SystemEvent ι K)

def TaskTurn.isPlanner {ι K : Type} : TaskTurn ι K → Bool
  | .planner _ => true
  | .outside _ => false

/-- The other clients are not the planner's. -/
def SystemEvent.others {ι K : Type} : SystemEvent ι K → SystemEvent (Option ι) K
  | .call client time request => .call (some client) time request
  | .tick tickStart systemClock => .tick tickStart systemClock

def ClientCall.torques {K : Type} : ClientCall K → List (List (Ieee K))
  | .dispatchVlaTorque torques _ _ => [torques]
  | _ => []

section Runs

variable {ι K : Type} [Field K] [LinearOrder K] [FloorRing K]

/-- The daemon has just constructed the segment. -/
def TaskSystem.start (now : Int) (prompt : PyStr) : TaskSystem ι K :=
  ⟨(ByteSystem.start now).view, .ingest prompt, []⟩

variable [DecidableEq ι] [SquareRoot K] [ExactSolver K] (numpy : Numpy K)
  (double : Ieee K → Ieee K) (target : List (Ieee K)) (obstacles : List (Obstacle K))

def TaskSystem.step (s : TaskSystem ι K) : TaskTurn ι K → TaskSystem ι K
  | .outside event => { s with system := s.system.step obstacles event.others }
  | .planner time =>
    match s.task.call numpy double with
    | none => s
    | some call =>
      let answer := call.answer (s.system.client none) s.system.telemetry
      ⟨s.system.step obstacles (.call none time call), s.task.resume numpy double target answer,
        s.dispatched ++ call.torques⟩

def TaskSystem.run (s : TaskSystem ι K) (turns : List (TaskTurn ι K)) : TaskSystem ι K :=
  turns.foldl (fun s turn => s.step numpy double target obstacles turn) s

end Runs

section Sizes

variable {K : Type} [Field K] [LinearOrder K] [IsStrictOrderedRing K] {double : Ieee K → Ieee K}

theorem within_natCast {n e : Nat} (h : n ≤ 2 ^ e) : Within e (.fin (n : K)) := by
  refine ⟨n, rfl, ?_⟩
  rw [Nat.abs_cast]
  exact_mod_cast h

variable (rounds : Rounds 1000 double)

include rounds

theorem sCurveEntry_within {t : Ieee K} (h : Within 5 t) : Within 17 (sCurveEntry double t) := by
  have square := rounds 10 (by norm_num) _ (h.mul h)
  have cube := rounds 15 (by norm_num) _ ((h.mul h).mul h)
  have first := rounds 12 (by norm_num) _
    ((within_natCast (K := K) (n := 3) (e := 2) (by norm_num)).mul square)
  have second := rounds 16 (by norm_num) _
    ((within_natCast (K := K) (n := 2) (e := 1) (by norm_num)).mul cube)
  exact rounds 17 (by norm_num) _ ((first.mono (by norm_num)).sub second)

theorem waypointJoint_within {s start target : Ieee K} (share : Within 17 s)
    (here : Within 66 start) (goal : Within 66 target) :
    Within 85 (waypointJoint double s start target) := by
  have way := rounds 67 (by norm_num) _ (goal.sub here)
  have part := rounds 84 (by norm_num) _ (share.mul way)
  exact rounds 85 (by norm_num) _ ((here.mono (by norm_num)).add part)

theorem taskTorque_within {numpy : Numpy K} (documented : numpy.Documented)
    {setpoint current : Ieee K} (goal : Within 85 setpoint) (position : Within 66 current) :
    ∃ t, taskTorque numpy double setpoint current = .fin t ∧ |t| ≤ 80 := by
  have error := rounds 86 (by norm_num) _ (goal.sub (position.mono (by norm_num)))
  obtain ⟨x, scaled, _⟩ := rounds 92 (by norm_num) _
    (error.mul (within_natCast (K := K) (n := 45) (e := 6) (by norm_num)))
  have order : -((80 : Nat) : K) ≤ ((80 : Nat) : K) := by norm_num
  refine ⟨_, by rw [taskTorque, scaled, documented.clipped _ _ _ order], abs_le.mpr ⟨?_, ?_⟩⟩
  · exact_mod_cast le_max_left (-((80 : Nat) : K)) (min x ((80 : Nat) : K))
  · exact_mod_cast max_le order (min_le_right x ((80 : Nat) : K))

end Sizes

section Chunk

variable {K : Type} [Field K] [LinearOrder K] {numpy : Numpy K} {double : Ieee K → Ieee K}
  {start : Fin DOF → Ieee K} {target : List (Ieee K)} {steps : Nat}

theorem planSetpoints_eq (long : DOF ≤ target.length) :
    planSetpoints numpy double start target steps =
      some ((numpy.linspace steps).map fun t => fun j => waypointJoint double
        (sCurveEntry double t) (start j) (target.getD j (.fin 0))) := by
  simp only [planSetpoints, if_pos long, List.mapM_map, Function.comp_def]
  exact List.mapM_pure

variable (documented : numpy.Documented)

include documented

theorem planSetpoints_short (short : target.length < DOF) (some : 0 < steps) :
    planSetpoints numpy double start target steps = none := by
  have count := documented.count steps
  unfold planSetpoints
  cases samples : numpy.linspace steps with
  | nil =>
    rw [samples, List.length_nil] at count
    omega
  | cons t rest =>
    simp only [if_neg (not_le.mpr short), List.map_cons, List.mapM_cons]
    rfl

variable [IsStrictOrderedRing K] (rounds : Rounds 1000 double)

include rounds

theorem planSetpoints_within (here : ∀ j, Within 66 (start j))
    (goals : ∀ x ∈ target, Within 66 x) {chunk : List (Fin DOF → Ieee K)}
    (planned : planSetpoints numpy double start target steps = some chunk) :
    chunk.length = steps ∧ ∀ w ∈ chunk, ∀ j, Within 85 (w j) := by
  by_cases long : DOF ≤ target.length
  · rw [planSetpoints_eq long] at planned
    cases planned
    refine ⟨by rw [List.length_map, documented.count], fun w member j => ?_⟩
    obtain ⟨t, sample, rfl⟩ := List.mem_map.mp member
    obtain ⟨x, rfl, low, high⟩ := documented.samples steps t sample
    have share : Within 17 (sCurveEntry double (.fin x)) := by
      refine sCurveEntry_within rounds ⟨x, rfl, ?_⟩
      rw [abs_of_nonneg low]
      exact high.trans (by norm_num)
    refine waypointJoint_within rounds share (here j) (goals _ ?_)
    rw [List.getD_eq_getElem _ _ (j.isLt.trans_le long)]
    exact List.getElem_mem _
  · by_cases empty : steps = 0
    · subst empty
      have none := List.length_eq_zero_iff.mp (documented.count 0)
      rw [planSetpoints, none] at planned
      cases planned
      exact ⟨rfl, fun w member => absurd member List.not_mem_nil⟩
    · rw [planSetpoints_short documented (by omega) (by omega)] at planned
      cases planned

theorem taskTorques_within (idx : Nat) {setpoint currentPos : Fin DOF → Ieee K}
    (goal : ∀ j, Within 85 (setpoint j)) (here : ∀ j, Within 66 (currentPos j)) :
    (taskTorques numpy double idx setpoint currentPos).length = DOF ∧
      (∀ x ∈ taskTorques numpy double idx setpoint currentPos, ∃ t, x = .fin t ∧ |t| ≤ 80) ∧
      (12 < idx → (taskTorques numpy double idx setpoint currentPos)[5]? =
        some (.fin ((42 : Nat) : K))) := by
  have pd : ∀ x ∈ (List.finRange DOF).map fun j => taskTorque numpy double (setpoint j) (currentPos j),
      ∃ t, x = .fin t ∧ |t| ≤ 80 := by
    intro x member
    obtain ⟨j, _, rfl⟩ := List.mem_map.mp member
    exact taskTorque_within rounds documented (goal j) (here j)
  unfold taskTorques
  split
  next late =>
    refine ⟨by simp, fun x member => ?_, fun _ => ?_⟩
    · rcases List.mem_or_eq_of_mem_set member with other | rfl
      · exact pd x other
      · exact ⟨_, rfl, by norm_num⟩
    · exact List.getElem?_set_self (by rw [List.length_map, List.length_finRange]; decide)
  next early => exact ⟨by simp, pd, fun late => absurd late early⟩

end Chunk

section Exact

variable {K : Type} [Field K] [LinearOrder K] [IsStrictOrderedRing K]

omit [IsStrictOrderedRing K] in
theorem sCurveEntry_exact (t : K) : sCurveEntry id (.fin t) = .fin (sCurve t) := by
  simp only [sCurveEntry, sCurve, id, fin_mul_fin, fin_sub_fin, Nat.cast_ofNat]
  congr 1
  ring

omit [IsStrictOrderedRing K] in
/-- Without rounding the setpoints are those of the exact chunk. -/
theorem planSetpoints_exact {numpy : Numpy K} {linspace : Nat → List K} {start : Fin DOF → K}
    {target : List K} {steps : Nat} (samples : numpy.linspace steps = (linspace steps).map .fin)
    (long : DOF ≤ target.length) :
    planSetpoints numpy id (fun j => .fin (start j)) (target.map .fin) steps =
      (planTrajectoryChunk linspace ((List.finRange DOF).map start) target steps).map
        (List.map fun w j => .fin (joint w j)) := by
  rw [planSetpoints_eq (by rwa [List.length_map]), planTrajectoryChunk_eq linspace (by simp) long,
    Option.map_some, samples, List.map_map, List.map_map]
  refine congrArg some (List.map_congr_left fun t _ => funext fun j => ?_)
  have goal : (target.map Ieee.fin).getD j (.fin 0) = .fin (joint target j) := by
    rw [List.getD_map, joint]
  have here : joint ((List.finRange DOF).map start) j = start j := by
    simp [joint]
  simp only [Function.comp_apply, sCurveEntry_exact, goal, joint_blend, here, waypointJoint, id,
    fin_mul_fin, fin_sub_fin, fin_add_fin]

end Exact

section Slow

variable {ι K : Type} [Field K] [LinearOrder K] [IsStrictOrderedRing K]

/-- What is true of the system after that many events, whatever they are. -/
structure SlowSystem (s : FieldSystem ι K) (n : Nat) : Prop where
  plant : ∃ q qDot, PlantSlow s.system.daemon q qDot ∧ ∀ i, |q i| ≤ 3 + 0.0018 * n
  positions : ∀ i, Within 66 (s.telemetry.jointPositions i)
  seq : s.system.shm.command.seq ≤ 2 * n

theorem SlowSystem.later {s : FieldSystem ι K} {n m : Nat} (h : SlowSystem s n) (order : n ≤ m) :
    SlowSystem s m := by
  obtain ⟨q, qDot, slow, within⟩ := h.plant
  have more : (n : K) ≤ m := Nat.cast_le.mpr order
  exact ⟨⟨q, qDot, slow, fun i => (within i).trans (by linarith)⟩, h.positions,
    h.seq.trans (by omega)⟩

/-- What a client reads of the positions is no larger than the plant's. -/
theorem SlowSystem.seen {s : FieldSystem ι K} {n : Nat} (h : SlowSystem s n) (j : Fin DOF) :
    Within 66 (s.telemetry.seen.positions j) := by
  unfold TelemetrySlot.seen
  split
  next => exact h.positions j
  next => exact ⟨0, rfl, by norm_num⟩

variable [FloorRing K]

theorem narrow_within {x : K} {n : Nat} (h : |x| ≤ 3 + 0.0018 * n) (short : n ≤ 2 ^ 64) :
    Within 66 (narrow (.fin x)) := by
  have top : (magnitude (193 * 2 ^ 23) : K) = 2 ^ 66 := by
    have power : (pow2 43 : K) = 2 ^ 43 := by
      rw [pow2]
      norm_num
    rw [magnitude, if_neg (by norm_num)]
    norm_num [power]
  have ticks : (n : K) ≤ 2 ^ 64 := by exact_mod_cast short
  have below : |x| ≤ magnitude (193 * 2 ^ 23) := by
    rw [top]
    linarith
  obtain ⟨y, narrowed, size, _⟩ := narrow_le (by decide) below
  exact ⟨y, narrowed, top ▸ size⟩

variable [DecidableEq ι] [SquareRoot K] [ExactSolver K] (obstacles : List (Obstacle K))

theorem SlowSystem.step {s : FieldSystem ι K} {n : Nat} (h : SlowSystem s n) (short : n < 2 ^ 64)
    (event : SystemEvent ι K) : SlowSystem (s.step obstacles event) (n + 1) := by
  obtain ⟨q, qDot, slow, within⟩ := h.plant
  cases event with
  | call client time call =>
    have later := h.later (Nat.le_succ n)
    refine ⟨later.plant, later.positions, ?_⟩
    have effect := call.run_effect Binary32.round ⟨s.system.heartbeatCounter client, s.system.shm⟩
    show (call.run Binary32.round ⟨s.system.heartbeatCounter client, s.system.shm⟩).buf.command.seq
      ≤ _
    generalize (call.run Binary32.round _).buf = buf at effect ⊢
    cases effect with
    | unchanged => exact later.seq
    | heartbeat => exact later.seq
    | dispatch payload seq flags =>
      have few : s.system.shm.command.seq ≤ 2 * n := h.seq
      have final : payload.seq = finalSeq s.system.shm.command.seq := seq
      show payload.seq ≤ _
      rw [final, finalSeq]
      split <;> omega
  | tick tickStart systemClock =>
    obtain ⟨torque, applied, full⟩ := slow.applied obstacles (s.system.input tickStart)
    have next := slow.tick applied full
    have moved : ∀ i, |(jointStep (q i) (qDot i) (torque i)).1| ≤ 3 + 0.0018 * ((n + 1 : Nat) : K) :=
      fun i => (jointStep_position (within i) (next.speed i)).trans_eq (by push_cast; ring)
    refine ⟨⟨_, _, next, moved⟩, fun i => ?_, h.seq.trans (by omega)⟩
    have position := narrow_within (moved i) short
    rw [← congrFun next.plant.position i] at position
    exact position

end Slow

section Progress

variable {K : Type}

theorem TaskPc.ingest_eq (prompt : PyStr) :
    (TaskPc.ingest prompt : TaskPc K) = if prompt.Encodable then .readInitial else .raised := by
  unfold TaskPc.ingest
  rw [printLine_eq]
  by_cases printable : prompt.Encodable
  · rw [if_pos printable, if_pos printable]
  · rw [if_neg printable, if_neg printable]

/-- The calls that a task has made which has raised nothing. -/
def TaskPc.calls : TaskPc K → Nat
  | .readInitial => 0
  | .dispatch idx .. => 2 * idx + 1
  | .readLive idx _ => 2 * idx + 2
  | .readFinal => 61
  | .done => 62
  | .raised => 0

variable [Field K]

theorem ClientCall.run_counter (packFloat : Ieee K → Option (Ieee K)) (call : ClientCall K)
    (c : NeuroKineticClient K) :
    (call.run packFloat c).heartbeatCounter = c.heartbeatCounter + 1 := by
  cases call with
  | sendHeartbeat => exact sendHeartbeat_counter c
  | readTelemetry => exact sendHeartbeat_counter c
  | dispatchVlaTorque torques safetyMargin gamma =>
    exact dispatchVlaTorque_counter packFloat torques safetyMargin gamma c

variable [LinearOrder K]

/-- How a task stands that has dispatched so often. -/
def TaskPc.Sound (dispatched : Nat) : TaskPc K → Prop
  | .readInitial => dispatched = 0
  | .dispatch idx setpoint rest currentPos => idx = dispatched ∧ idx + 1 + rest.length = 30 ∧
    (∀ w ∈ setpoint :: rest, ∀ j, Within 85 (w j)) ∧ ∀ j, Within 66 (currentPos j)
  | .readLive idx rest => idx + 1 = dispatched ∧ idx + 1 + rest.length = 30 ∧
    ∀ w ∈ rest, ∀ j, Within 85 (w j)
  | .readFinal | .done => dispatched = 30
  | .raised => False

theorem TaskPc.loop_sound {idx : Nat} {setpoints : List (Fin DOF → Ieee K)}
    {currentPos : Fin DOF → Ieee K} (total : idx + setpoints.length = 30)
    (goals : ∀ w ∈ setpoints, ∀ j, Within 85 (w j)) (here : ∀ j, Within 66 (currentPos j)) :
    (TaskPc.loop idx setpoints currentPos).Sound idx ∧
      (TaskPc.loop idx setpoints currentPos).calls = 2 * idx + 1 := by
  cases setpoints with
  | nil =>
    have last : idx = 30 := total
    exact ⟨last, by rw [last]; rfl⟩
  | cons setpoint rest =>
    rw [List.length_cons] at total
    exact ⟨⟨rfl, by omega, goals, here⟩, rfl⟩

/-- The calls tell how often a task has dispatched and whether it is done. -/
theorem TaskPc.Sound.progress {pc : TaskPc K} {dispatched : Nat} (h : pc.Sound dispatched) :
    dispatched = min (pc.calls / 2) 30 ∧ pc ≠ .raised ∧ (pc = .done ↔ pc.calls = 62) := by
  cases pc with
  | readInitial =>
    have none : dispatched = 0 := h
    exact ⟨by simp [none, TaskPc.calls], by simp, by simp [TaskPc.calls]⟩
  | dispatch idx setpoint rest currentPos =>
    obtain ⟨count, total, _⟩ := h
    refine ⟨?_, by simp, iff_of_false (by simp) ?_⟩
    · simp only [TaskPc.calls]
      omega
    · simp only [TaskPc.calls]
      omega
  | readLive idx rest =>
    obtain ⟨count, total, _⟩ := h
    refine ⟨?_, by simp, iff_of_false (by simp) ?_⟩
    · simp only [TaskPc.calls]
      omega
    · simp only [TaskPc.calls]
      omega
  | readFinal =>
    have all : dispatched = 30 := h
    exact ⟨by simp [all, TaskPc.calls], by simp, by simp [TaskPc.calls]⟩
  | done =>
    have all : dispatched = 30 := h
    exact ⟨by simp [all, TaskPc.calls], by simp, by simp [TaskPc.calls]⟩
  | raised => exact absurd h id

/-- A command of the task: seven torques of eighty newton metres at most, and the hazard on
the sixth joint of the later ones. -/
structure TorquesAt (k : Nat) (torques : List (Ieee K)) : Prop where
  length : torques.length = DOF
  clipped : ∀ x ∈ torques, ∃ t, x = .fin t ∧ |t| ≤ 80
  hazard : 12 < k → torques[5]? = some (.fin ((42 : Nat) : K))

variable [FloorRing K] [IsStrictOrderedRing K]

/-- What the task dispatches is packed. -/
theorem answer_dispatch {k : Nat} {torques : List (Ieee K)} (h : TorquesAt k torques)
    {c : NeuroKineticClient K} (telemetry : TelemetrySlot K) (room : c.heartbeatCounter + 1 < 2 ^ 64)
    (seq : c.buf.command.seq + 2 < 2 ^ 64) :
    ClientCall.answer c telemetry (.dispatchVlaTorque torques (.fin 0.08) (.fin 15)) = .returned := by
  have final : finalSeq c.buf.command.seq < 2 ^ 64 := by
    unfold finalSeq
    split <;> omega
  have packable : Packable (finalSeq c.buf.command.seq) torques (.fin 0.08) (.fin 15) := by
    refine (packable_defaults_iff _ h.length).mpr ⟨final, fun x member => ?_⟩
    obtain ⟨t, rfl, size⟩ := h.clipped x member
    exact isSome_encode (size.trans (by norm_num))
  rcases dispatchVlaTorque_isOk_cases torques (.fin 0.08) (.fin 15) c with ⟨_, buf, sent⟩ | ⟨not, _⟩
  · rw [ClientCall.answer, sent]
    rfl
  · exact absurd ⟨room, packable⟩ not

end Progress

section Tasks

variable {ι K : Type} [DecidableEq ι] [Field K] [LinearOrder K] [FloorRing K]
  [IsStrictOrderedRing K] [SquareRoot K] [ExactSolver K] {numpy : Numpy K}
  {double : Ieee K → Ieee K} {target : List (Ieee K)} {obstacles : List (Obstacle K)}

omit [IsStrictOrderedRing K] in
theorem FieldSystem.step_call_counter {ι : Type} [DecidableEq ι] (s : FieldSystem ι K)
    (obstacles : List (Obstacle K)) (client : ι) (time : Int) (call : ClientCall K) :
    (s.step obstacles (.call client time call)).system.heartbeatCounter =
      Function.update s.system.heartbeatCounter client (s.system.heartbeatCounter client + 1) := by
  rw [← call.run_counter Binary32.round ⟨s.system.heartbeatCounter client, s.system.shm⟩]
  rfl

/-- The system and its task after that many turns, of which the planner had so many. -/
structure TaskInv (s : TaskSystem ι K) (n p : Nat) : Prop where
  slow : SlowSystem s.system n
  counter : s.system.system.heartbeatCounter none = min p 62
  calls : s.task.calls = min p 62
  sound : s.task.Sound s.dispatched.length
  torques : ∀ k torques, s.dispatched[k]? = some torques → TorquesAt k torques

omit [IsStrictOrderedRing K] in
theorem TaskSystem.outside_counter (s : TaskSystem ι K) (event : SystemEvent ι K) :
    (s.step numpy double target obstacles (.outside event)).system.system.heartbeatCounter none =
      s.system.system.heartbeatCounter none := by
  cases event with
  | tick tickStart systemClock => rfl
  | call client time request =>
    have other : none ≠ some client := fun same => by cases same
    have counted := s.system.step_call_counter obstacles (some client) time request
    exact (congrFun counted none).trans (Function.update_of_ne other _ _)

theorem TaskInv.outside {s : TaskSystem ι K} {n p : Nat} (h : TaskInv s n p) (short : n < 2 ^ 64)
    (event : SystemEvent ι K) :
    TaskInv (s.step numpy double target obstacles (.outside event)) (n + 1) p := by
  exact { h with
    slow := h.slow.step obstacles short event.others
    counter := (s.outside_counter event).trans h.counter }

omit [DecidableEq ι] [FloorRing K] [IsStrictOrderedRing K] [SquareRoot K] [ExactSolver K] in
theorem torquesAt_append {dispatched : List (List (Ieee K))} {call : ClientCall K}
    (before : ∀ k torques, dispatched[k]? = some torques → TorquesAt k torques)
    (next : ∀ torques ∈ call.torques, TorquesAt dispatched.length torques) (k : Nat)
    (torques : List (Ieee K)) (found : (dispatched ++ call.torques)[k]? = some torques) :
    TorquesAt k torques := by
  rcases Nat.lt_or_ge k dispatched.length with old | new
  · rw [List.getElem?_append_left old] at found
    exact before k torques found
  · rw [List.getElem?_append_right new] at found
    have one : call.torques.length ≤ 1 := by cases call <;> simp [ClientCall.torques]
    have inside := (List.getElem?_eq_some_iff.mp found).1
    have last : k = dispatched.length := by omega
    rw [last]
    exact next torques (List.mem_of_getElem? found)

/-- A call of the planner's that is answered as the task needs it. -/
theorem TaskInv.called {s : TaskSystem ι K} {n p : Nat} (h : TaskInv s n p) (short : n < 2 ^ 64)
    (time : Int) {call : ClientCall K} {task : TaskPc K} (early : p < 62)
    (calls : task.calls = p + 1) (sound : task.Sound (s.dispatched ++ call.torques).length)
    (torques : ∀ torques ∈ call.torques, TorquesAt s.dispatched.length torques) :
    TaskInv ⟨s.system.step obstacles (.call none time call), task,
      s.dispatched ++ call.torques⟩ (n + 1) (p + 1) := by
  have next : min (p + 1) 62 = p + 1 := min_eq_left early
  refine ⟨h.slow.step obstacles short _, ?_, calls.trans next.symm, sound,
    torquesAt_append h.torques torques⟩
  have counter := h.counter
  rw [min_eq_left early.le] at counter
  rw [next, ← counter]
  have counted := s.system.step_call_counter obstacles none time call
  exact (congrFun counted none).trans (Function.update_self _ _ _)

theorem TaskInv.planner {s : TaskSystem ι K} {n p : Nat} (h : TaskInv s n p)
    (documented : numpy.Documented) (rounds : Rounds 1000 double) (long : DOF ≤ target.length)
    (goals : ∀ x ∈ target, Within 66 x) (short : n < 2 ^ 62) (time : Int) :
    TaskInv (s.step numpy double target obstacles (.planner time)) (n + 1) (p + 1) := by
  have few : n < 2 ^ 64 := by omega
  have room : s.system.system.heartbeatCounter none + 1 < 2 ^ 64 := by
    rw [h.counter]
    omega
  have told : ClientCall.answer (s.system.client none) s.system.telemetry .readTelemetry =
      .dictionary s.system.telemetry.seen := by
    rw [ClientCall.answer_readTelemetry]
    exact if_pos room
  have here := h.slow.seen
  have calls := h.calls
  have sound := h.sound
  have quiet : s.dispatched ++ (ClientCall.readTelemetry : ClientCall K).torques = s.dispatched :=
    List.append_nil _
  have silent : ∀ torques ∈ (ClientCall.readTelemetry : ClientCall K).torques,
      TorquesAt s.dispatched.length torques := fun _ member => absurd member List.not_mem_nil
  cases task : s.task with
  | readInitial =>
    rw [task] at calls sound
    have first : s.dispatched.length = 0 := sound
    simp only [TaskSystem.step, task, TaskPc.call, TaskPc.resume, told]
    have planned : planSetpoints numpy double s.system.telemetry.seen.positions target 30 = some _ :=
      planSetpoints_eq long
    obtain ⟨total, within⟩ := planSetpoints_within documented rounds here goals planned
    rw [planned]
    obtain ⟨loop, count⟩ := TaskPc.loop_sound ((Nat.zero_add _).trans total) within here
    have start : p = 0 := by
      simp only [TaskPc.calls] at calls
      omega
    refine h.called few time (by omega) (by rw [count]; omega) ?_ silent
    rw [quiet, first]
    exact loop
  | dispatch idx setpoint rest currentPos =>
    rw [task] at calls sound
    obtain ⟨count, total, within, position⟩ := sound
    obtain ⟨length, clipped, hazard⟩ := taskTorques_within documented rounds idx
      (within setpoint List.mem_cons_self) position
    have command : TorquesAt idx (taskTorques numpy double idx setpoint currentPos) :=
      ⟨length, clipped, hazard⟩
    have seq := h.slow.seq
    have packed := answer_dispatch command s.system.telemetry (c := s.system.client none) room
      (show s.system.system.shm.command.seq + 2 < 2 ^ 64 by omega)
    simp only [TaskSystem.step, task, TaskPc.call, TaskPc.resume, packed]
    simp only [TaskPc.calls] at calls
    refine h.called few time (by omega) (by simp only [TaskPc.calls]; omega) ?_ fun torques member => ?_
    · rw [ClientCall.torques, List.length_append, List.length_singleton, ← count]
      exact ⟨rfl, total, fun w member => within w (List.mem_cons_of_mem _ member)⟩
    · rw [List.mem_singleton.mp member, ← count]
      exact command
  | readLive idx rest =>
    rw [task] at calls sound
    obtain ⟨count, total, within⟩ := sound
    simp only [TaskSystem.step, task, TaskPc.call, TaskPc.resume, told]
    obtain ⟨loop, next⟩ := TaskPc.loop_sound total within here
    simp only [TaskPc.calls] at calls
    refine h.called few time (by omega) (by rw [next]; omega) ?_ silent
    rw [quiet, ← count]
    exact loop
  | readFinal =>
    rw [task] at calls sound
    simp only [TaskSystem.step, task, TaskPc.call, TaskPc.resume, told]
    simp only [TaskPc.calls] at calls
    refine h.called few time (by omega) (by simp only [TaskPc.calls]; omega) ?_ silent
    rw [quiet]
    exact sound
  | done =>
    rw [task] at calls
    simp only [TaskSystem.step, task, TaskPc.call]
    simp only [TaskPc.calls] at calls
    have past : min (p + 1) 62 = min p 62 := by omega
    exact ⟨h.slow.later (Nat.le_succ n), past ▸ h.counter, past ▸ h.calls, h.sound, h.torques⟩
  | raised =>
    rw [task] at sound
    exact absurd sound id

theorem TaskInv.run {s : TaskSystem ι K} {n p : Nat} (h : TaskInv s n p)
    (documented : numpy.Documented) (rounds : Rounds 1000 double) (long : DOF ≤ target.length)
    (goals : ∀ x ∈ target, Within 66 x) (turns : List (TaskTurn ι K))
    (short : n + turns.length ≤ 2 ^ 62) :
    TaskInv (s.run numpy double target obstacles turns) (n + turns.length)
      (p + turns.countP TaskTurn.isPlanner) := by
  induction turns generalizing s n p with
  | nil => exact h
  | cons turn rest ih =>
    rw [List.length_cons] at short ⊢
    have few : n < 2 ^ 62 := by omega
    cases turn with
    | planner time =>
      have next : TaskInv ((s.step numpy double target obstacles (.planner time)).run numpy double target
          obstacles rest) _ _ := ih (h.planner documented rounds long goals few time) (by omega)
      rwa [show n + 1 + rest.length = n + (rest.length + 1) by omega,
        show p + 1 + _ = p + ((TaskTurn.planner time :: rest).countP TaskTurn.isPlanner) by
          rw [List.countP_cons_of_pos rfl]; omega] at next
    | outside event =>
      have next : TaskInv ((s.step numpy double target obstacles (.outside event)).run numpy double target
          obstacles rest) _ _ := ih (h.outside (by omega) event) (by omega)
      rw [List.countP_cons_of_neg (by simp [TaskTurn.isPlanner])]
      rwa [show n + 1 + rest.length = n + (rest.length + 1) by omega] at next

omit [DecidableEq ι] [SquareRoot K] [ExactSolver K] in
theorem taskInv_start (now : Int) {prompt : PyStr} (printable : prompt.Encodable) :
    TaskInv (TaskSystem.start now prompt : TaskSystem ι K) 0 0 := by
  have within : ∀ i, |(![0, 0.2, 0, -1.2, 0, 2.80, 0] : Fin DOF → K) i| ≤ 3 := by
    intro i
    rw [abs_le]
    fin_cases i <;> norm_num
  have start := ByteSystem.start_view (ι := Option ι) (K := K) now
  rw [TaskSystem.start, TaskPc.ingest_eq, if_pos printable]
  refine ⟨⟨?_, ?_, ?_⟩, ?_, rfl, rfl, fun k torques found => ?_⟩
  · refine ⟨_, _, daemonStart_slow now, fun i => (within i).trans_eq ?_⟩
    rw [Nat.cast_zero, mul_zero, add_zero]
  · rw [start]
    exact fun i => ⟨0, rfl, by norm_num⟩
  · rw [start]
    exact Nat.zero_le _
  · rfl
  · cases found

omit [IsStrictOrderedRing K] in
/-- A target that is too short ends the task at its first read. -/
theorem short_target (documented : numpy.Documented) {s : TaskSystem ι K} (p : Nat)
    (first : (s.task = .readInitial ∧ p = 0 ∨ s.task = .raised ∧ 0 < p) ∧ s.dispatched = [])
    (short : target.length < DOF) (turns : List (TaskTurn ι K)) :
    let after := s.run numpy double target obstacles turns
    (after.task = .readInitial ∧ p + turns.countP TaskTurn.isPlanner = 0 ∨
      after.task = .raised ∧ 0 < p + turns.countP TaskTurn.isPlanner) ∧ after.dispatched = [] := by
  induction turns generalizing s p with
  | nil => exact first
  | cons turn rest ih =>
    cases turn with
    | outside event =>
      rw [List.countP_cons_of_neg (by simp [TaskTurn.isPlanner])]
      exact ih p first
    | planner time =>
      rw [List.countP_cons_of_pos rfl, ← Nat.add_assoc, Nat.add_right_comm]
      refine ih (p + 1) ⟨Or.inr ⟨?_, Nat.succ_pos p⟩, ?_⟩
      · rcases first.1 with ⟨task, _⟩ | ⟨task, _⟩
        · simp only [TaskSystem.step, task, TaskPc.call, TaskPc.resume]
          split
          next => rw [planSetpoints_short documented short (by norm_num)]
          next => rfl
        · simp only [TaskSystem.step, task, TaskPc.call]
      · rcases first.1 with ⟨task, _⟩ | ⟨task, _⟩
        · simp only [TaskSystem.step, task, TaskPc.call, first.2]
          rfl
        · simp only [TaskSystem.step, task, TaskPc.call, first.2]

omit [IsStrictOrderedRing K] in
/-- A task that has raised calls nothing any more. -/
theorem raised_task {s : TaskSystem ι K} (raised : s.task = .raised) (turns : List (TaskTurn ι K)) :
    let after := s.run numpy double target obstacles turns
    after.task = .raised ∧ after.dispatched = s.dispatched ∧
      after.system.system.heartbeatCounter none = s.system.system.heartbeatCounter none := by
  induction turns generalizing s with
  | nil => exact ⟨raised, rfl, rfl⟩
  | cons turn rest ih =>
    cases turn with
    | planner time =>
      have same : s.step numpy double target obstacles (.planner time) = s := by
        simp only [TaskSystem.step, raised, TaskPc.call]
      rw [TaskSystem.run, List.foldl_cons, same]
      exact ih raised
    | outside event =>
      obtain ⟨task, dispatched, counter⟩ :=
        ih (s := s.step numpy double target obstacles (.outside event)) raised
      exact ⟨task, dispatched, counter.trans (s.outside_counter event)⟩

end Tasks

section Commands

variable {K : Type} [Field K] [LinearOrder K] [IsStrictOrderedRing K]

omit [IsStrictOrderedRing K] in
theorem not_refused_of_finite {s : DaemonState K} {input : TickInput K} {u : Fin DOF → K}
    (finite : input.command.nominalTorques = fun i => .fin (u i)) : ¬CommandRefused s input := by
  have zero : (zeroTorque : Fin DOF → Ieee K) = fun i => .fin ((fun _ => 0) i) := rfl
  have ingested : ∃ v : Fin DOF → K,
      (ingestCommand input.command).nominalTorque = fun i => .fin (v i) := by
    unfold ingestCommand
    split
    next =>
      dsimp only
      split
      next => exact ⟨_, zero⟩
      next => exact ⟨u, finite⟩
    next => exact ⟨_, zero⟩
  refine not_not.mpr ?_
  unfold tickCommand
  dsimp only
  split
  next => exact ⟨_, zero⟩
  next => exact ingested

variable [FloorRing K]

/-- A command of the task leaves numbers in the slot, and one that is not stored leaves the
slot alone. -/
theorem TorquesAt.stored {k : Nat} {torques : List (Ieee K)} (h : TorquesAt k torques)
    {c : NeuroKineticClient K} (finite : ∃ u : Fin DOF → K,
      c.buf.command.nominalTorques = fun i => .fin (u i)) :
    ∃ u : Fin DOF → K, ((ClientCall.dispatchVlaTorque torques (.fin 0.08) (.fin 15)).run
      Binary32.round c).buf.command.nominalTorques = fun i => .fin (u i) := by
  rcases dispatchVlaTorque_cases Binary32.round torques (.fin 0.08) (.fin 15) c with
    ⟨_, packed⟩ | ⟨_, _, kept⟩
  · obtain ⟨_, _, nominal, _⟩ := @packCommand_requested K _ Binary32.round
      ⟨torques, .fin 0.08, .fin 15⟩ _ _ round_zero packed
    have seq := (packCommand_ok packed).1
    have carried : Carries Binary32.round (some ⟨torques, .fin 0.08, .fin 15⟩)
        (dispatchVlaTorque Binary32.round torques (.fin 0.08) (.fin 15) c).1.buf.command := by
      refine .sent _ _ ?_ ?_ (seq.symm ▸ packed)
      · rw [seq]
        exact finalSeq_even _
      · rw [seq]
        exact ((Nat.zero_le _).trans_lt (seq_lt_finalSeq _)).ne'
    have numbers : ¬Unfiltered (some (⟨torques, .fin 0.08, .fin 15⟩ : DispatchArgs K)) := by
      rintro ⟨_, same, x, member, unordered⟩
      cases same
      obtain ⟨t, rfl, _⟩ := h.clipped x member
      cases unordered
    obtain ⟨u, values⟩ := carried.finite_iff.mpr numbers
    exact ⟨u, nominal.trans values⟩
  · rw [show ((ClientCall.dispatchVlaTorque torques (.fin 0.08) (.fin 15)).run
      Binary32.round c).buf.command = c.buf.command from kept]
    exact finite

end Commands

section Obeyed

variable {ι K : Type} [DecidableEq ι] [Field K] [LinearOrder K] [FloorRing K]
  [IsStrictOrderedRing K] [SquareRoot K] [ExactSolver K] {numpy : Numpy K}
  {double : Ieee K → Ieee K} {target : List (Ieee K)} {obstacles : List (Obstacle K)}

/-- The slot holds numbers, and the latest frame reports no error. -/
structure Accepted (s : FieldSystem ι K) : Prop where
  command : ∃ u : Fin DOF → K, s.system.shm.command.nominalTorques = fun i => .fin (u i)
  frame : s.telemetry.errorCode = 0

theorem Accepted.tick {s : FieldSystem ι K} {n : Nat} (h : Accepted s) (slow : SlowSystem s n)
    (tickStart systemClock : Int) : Accepted (s.step obstacles (.tick tickStart systemClock)) := by
  refine ⟨h.command, ?_⟩
  obtain ⟨q, qDot, plant, _⟩ := slow.plant
  obtain ⟨u, finite⟩ := h.command
  rcases tick_result obstacles plant (s.system.input tickStart) with
    ⟨refused, _⟩ | ⟨_, ⟨output, answer⟩, _⟩
  · exact absurd refused (not_refused_of_finite finite)
  · simp only [FieldSystem.step, publishedFrame, answer]

omit [IsStrictOrderedRing K] in
theorem Accepted.heartbeat {s : FieldSystem ι K} (h : Accepted s) (client : ι) (time : Int)
    {call : ClientCall K} (quiet : call.torques = []) :
    Accepted (s.step obstacles (.call client time call)) := by
  have kept : (s.step obstacles (.call client time call)).system.shm.command =
      s.system.shm.command := by
    have only : ∀ c t torques margin gamma, .call c t (.dispatchVlaTorque torques margin gamma) ∉
        [(.call client time call : Event ι K)] := by
      intro _ _ torques margin gamma member
      cases List.mem_singleton.mp member
      cases quiet
    exact System.run_command Binary32.round obstacles only
  exact ⟨kept ▸ h.command, h.frame⟩

theorem Accepted.planner {s : TaskSystem ι K} {n p : Nat} (h : Accepted s.system)
    (inv : TaskInv s n p) (documented : numpy.Documented) (rounds : Rounds 1000 double) (time : Int) :
    Accepted (s.step numpy double target obstacles (.planner time)).system := by
  have sound := inv.sound
  cases task : s.task with
  | dispatch idx setpoint rest currentPos =>
    rw [task] at sound
    obtain ⟨length, clipped, hazard⟩ := taskTorques_within documented rounds idx
      (sound.2.2.1 setpoint List.mem_cons_self) sound.2.2.2
    have command : TorquesAt idx (taskTorques numpy double idx setpoint currentPos) :=
      ⟨length, clipped, hazard⟩
    simp only [TaskSystem.step, task, TaskPc.call]
    exact ⟨command.stored h.command, h.frame⟩
  | readInitial | readLive idx rest | readFinal =>
    simp only [TaskSystem.step, task, TaskPc.call]
    exact h.heartbeat none time rfl
  | done | raised =>
    simp only [TaskSystem.step, task, TaskPc.call]
    exact h

/-- Another client's event that dispatches nothing. -/
def TaskTurn.Quiet : TaskTurn ι K → Prop
  | .outside (.call _ _ call) => call.torques = []
  | _ => True

theorem Accepted.run {s : TaskSystem ι K} {n p : Nat} (h : Accepted s.system) (inv : TaskInv s n p)
    (documented : numpy.Documented) (rounds : Rounds 1000 double) (long : DOF ≤ target.length)
    (goals : ∀ x ∈ target, Within 66 x) (turns : List (TaskTurn ι K))
    (short : n + turns.length ≤ 2 ^ 62) (quiet : ∀ turn ∈ turns, turn.Quiet) :
    Accepted (s.run numpy double target obstacles turns).system := by
  induction turns generalizing s n p with
  | nil => exact h
  | cons turn rest ih =>
    rw [List.length_cons] at short
    have later : ∀ turn ∈ rest, turn.Quiet := fun turn member =>
      quiet turn (List.mem_cons_of_mem _ member)
    have few : n < 2 ^ 62 := by omega
    have more : n < 2 ^ 64 := by omega
    cases turn with
    | planner time =>
      exact ih (h.planner inv documented rounds time)
        (inv.planner documented rounds long goals few time) (by omega) later
    | outside event =>
      refine ih ?_ (inv.outside more event) (by omega) later
      have calm := quiet _ List.mem_cons_self
      cases event with
      | call client time call => exact h.heartbeat (some client) time calm
      | tick tickStart systemClock => exact h.tick inv.slow tickStart systemClock

variable (obstacles)

/-- Beside any ticks and any other clients the task raises nothing and is done after its
62 calls, every second of which dispatches seven torques of at most eighty newton metres; a
target that is too short ends it before its first dispatch, and a prompt that cannot be printed
before its first call. -/
theorem task_completes (documented : numpy.Documented) (rounds : Rounds 1000 double)
    (goals : ∀ x ∈ target, Within 66 x) (now : Int) (prompt : PyStr) {turns : List (TaskTurn ι K)}
    (short : turns.length ≤ 2 ^ 62) :
    let s := (TaskSystem.start now prompt).run numpy double target obstacles turns
    let p := turns.countP TaskTurn.isPlanner
    (prompt.Encodable → DOF ≤ target.length →
      s.system.system.heartbeatCounter none = min p 62 ∧
      s.dispatched.length = min (p / 2) 30 ∧
      (∀ k torques, s.dispatched[k]? = some torques → TorquesAt k torques) ∧
      s.task ≠ .raised ∧ (s.task = .done ↔ 62 ≤ p)) ∧
    (prompt.Encodable → target.length < DOF → s.dispatched = [] ∧ (s.task = .raised ↔ 0 < p)) ∧
    (¬prompt.Encodable → s.dispatched = [] ∧ s.task = .raised ∧
      s.system.system.heartbeatCounter none = 0) := by
  intro s p
  refine ⟨fun printable long => ?_, fun printable few => ?_, fun unprintable => ?_⟩
  · have inv : TaskInv s (0 + turns.length) (0 + p) :=
      (taskInv_start now printable).run documented rounds long goals turns (by omega)
    simp only [Nat.zero_add] at inv
    have calls : s.task.calls = min p 62 := inv.calls
    have sound : s.task.Sound s.dispatched.length := inv.sound
    obtain ⟨dispatched, alive, done⟩ := sound.progress
    rw [calls] at dispatched done
    exact ⟨inv.counter, by omega, inv.torques, alive, done.trans (by omega)⟩
  · have first : (TaskSystem.start now prompt : TaskSystem ι K).task = .readInitial := by
      rw [TaskSystem.start, TaskPc.ingest_eq, if_pos printable]
    obtain ⟨task, none⟩ : (s.task = .readInitial ∧ 0 + p = 0 ∨ s.task = .raised ∧ 0 < 0 + p) ∧
        s.dispatched = [] := short_target documented 0 ⟨Or.inl ⟨first, rfl⟩, rfl⟩ few turns
    refine ⟨none, ?_⟩
    rcases task with ⟨first, quiet⟩ | ⟨raised, called⟩
    · refine iff_of_false (fun raised => ?_) (by omega)
      cases first.symm.trans raised
    · exact iff_of_true raised (by omega)
  · have first : (TaskSystem.start now prompt : TaskSystem ι K).task = .raised := by
      rw [TaskSystem.start, TaskPc.ingest_eq, if_neg unprintable]
    obtain ⟨raised, none, counter⟩ : s.task = .raised ∧ s.dispatched = [] ∧
        s.system.system.heartbeatCounter none = 0 := raised_task first turns
    exact ⟨none, raised, counter⟩

end Obeyed

section Example

/-- The task's own calls, each followed by a tick. -/
def pacedTurns : List (TaskTurn Unit ℝ) :=
  (List.range 62).flatMap fun k =>
    [.planner k, .outside (.tick (20000000 * k) (20000000 * k))]

def homeTarget : List (Ieee ℝ) := List.replicate DOF (.fin 0)

theorem homeTarget_within : ∀ x ∈ homeTarget, Within 66 x := by
  intro x member
  rw [List.eq_of_mem_replicate member]
  exact ⟨0, rfl, by norm_num⟩

theorem pacedTurns_planner : pacedTurns.countP TaskTurn.isPlanner = 62 := by
  decide +kernel

theorem pacedTurns_short : pacedTurns.length ≤ 2 ^ 62 := by
  rw [pacedTurns, List.length_flatMap]
  simp

/-- The functions of numpy over the reals. -/
noncomputable def exactNumpy : Numpy ℝ where
  linspace num := (unitGrid num).map .fin
  clip x low high := stdClamp x low high

theorem exactNumpy_documented : exactNumpy.Documented := by
  refine ⟨fun num => ?_, fun num t sample => ?_, fun x low high order => ?_⟩
  · rw [exactNumpy, List.length_map, unitGrid, List.length_map, List.length_range]
  · obtain ⟨x, entry, rfl⟩ := List.mem_map.mp sample
    obtain ⟨k, inside, rfl⟩ := List.mem_map.mp entry
    rw [List.mem_range] at inside
    refine ⟨_, rfl, by positivity, div_le_one_of_le₀ ?_ (Nat.cast_nonneg _)⟩
    exact_mod_cast (show k ≤ num - 1 by omega)
  · simp only [exactNumpy, stdClamp, fin_lt_fin]
    split
    next below => rw [min_eq_left (below.le.trans order), max_eq_left below.le]
    next inside =>
      rw [not_lt] at inside
      split
      next above => rw [min_eq_right above.le, max_eq_right order]
      next below => rw [min_eq_left (not_lt.mp below), max_eq_right inside]

theorem task_completes_paced :
    ((TaskSystem.start 0 (.ofString "home")).run exactNumpy id homeTarget daemonObstacles
      pacedTurns).task = .done := by
  have long : DOF ≤ homeTarget.length := by
    rw [homeTarget, List.length_replicate]
  have completed := (task_completes daemonObstacles exactNumpy_documented (rounds_id 1000)
    homeTarget_within 0 (.ofString "home") pacedTurns_short).1 (PyStr.ofString_encodable "home") long
  exact completed.2.2.2.2.mpr (by rw [pacedTurns_planner])

end Example

end NeuroKinetic
