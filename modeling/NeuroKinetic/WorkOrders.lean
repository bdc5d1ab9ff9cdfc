import NeuroKinetic.DiagnosticHold
import NeuroKinetic.ShmDispatch

namespace NeuroKinetic

inductive RobotStatus where
  | idle
  | busy
  | quarantined
  | safetyHold
  deriving DecidableEq, Repr

/-- A string of Python: its code points, lone surrogates among them. -/
abbrev PyStr := List (Fin 0x110000)

def PyStr.ofString (text : String) : PyStr := text.toList.map fun c => Fin.ofNat _ c.toNat

/-- UTF-8 has bytes for every code point but the surrogates. -/
def PyStr.Encodable (text : PyStr) : Prop := ∀ c ∈ text, c.val.isValidChar

instance (text : PyStr) : Decidable text.Encodable := List.decidableBAll _ _

structure RobotAsset where
  robotId : PyStr
  status : RobotStatus
  assignedWorkcell : PyStr

inductive OrderError where
  | indexError
  | unicodeEncodeError
  | client (e : PyError)

structure FleetDispatcherAgent (K : Type) where
  fleet : List RobotAsset
  diagnostic : ForensicDiagnosticAgent
  shmClient : NeuroKineticClient K

/-- What a work order meets outside of its process: what each read of the telemetry
returns and the segment as each dispatch finds it. The twin works on any numbers. -/
structure Surroundings (K : Type) where
  reading : Nat → TelemetryReading K
  segment : Nat → SharedMemory K
  evaluatePhysicsTwin : TelemetryReading K → PhysicsReading K

section Printing

/-- `print` to a UTF-8 stream. -/
def printLine (text : PyStr) : Except OrderError Unit :=
  if text.Encodable then .ok () else .error .unicodeEncodeError

/-- An order and its directive are printed first of all. -/
def ingestOrder (orderId prompt : PyStr) : Except OrderError Unit := do
  printLine (.ofString "  FLEET ORCHESTRATOR : INGESTING ORDER [" ++ orderId ++ .ofString "]")
  printLine (.ofString "  Directive: '" ++ prompt ++ .ofString "'")

def assignOrder (asset : RobotAsset) : Except OrderError Unit :=
  printLine (.ofString " [FleetDispatcher] Assigning order to '" ++ asset.robotId ++
    .ofString "' in " ++ asset.assignedWorkcell)

/-- The joint only decides whether a warning is printed. -/
def requestSpatialCorridor {K : Type} (robotId : PyStr) (targetPos : List (Ieee K)) :
    Except OrderError Bool := do
  printLine (.ofString " [SpatialDeconflictionAgent] Evaluating 3D corridor reservation for '" ++
    robotId ++ .ofString "'...")
  match targetPos[5]? with
  | none => .error .indexError
  | some _ =>
    printLine (.ofString "  ✓ Spatial clearance verified for '" ++ robotId ++
      .ofString "'. Corridor granted.")
    .ok true

end Printing

/-- The first idle robot, with its place in the fleet. -/
def selectRobot (fleet : List RobotAsset) : Option (Nat × RobotAsset) :=
  (fleet.findIdx? fun asset => asset.status = .idle).bind fun selected =>
    fleet[selected]?.map fun asset => (selected, asset)

def setStatus (fleet : List RobotAsset) (selected : Nat) (status : RobotStatus) :
    List RobotAsset :=
  fleet.modify selected fun asset => { asset with status := status }

section Setpoints

variable {K : Type} [Field K] [LinearOrder K]

section Torques

-- `double` rounds the result of one operation to a 64-bit float
variable (double : Ieee K → Ieee K)

def interpJoint (step : Nat) (current goal : Ieee K) : Ieee K :=
  double (current + double (double (.fin ((step : K) / 15)) * double (goal - current)))

def interpPos (step : Nat) (currentPos : Fin DOF → Ieee K) (targetJoints : List (Ieee K)) :
    Option (List (Ieee K)) :=
  (List.finRange DOF).mapM fun j : Fin DOF =>
    (targetJoints[(j : Nat)]?).map (interpJoint double step (currentPos j))

def nominalTorque (current interp : Ieee K) : Ieee K := double (double (interp - current) * .fin 35)

/-- A hazard is injected after step eight. -/
def nominalTorques (step : Nat) (currentPos : Fin DOF → Ieee K) (interp : List (Ieee K)) :
    List (Ieee K) :=
  let torques := (List.finRange DOF).map fun j =>
    nominalTorque double (currentPos j) (interp.getD j (.fin 0))
  if 8 < step then torques.set 5 (.fin 42) else torques

end Torques

def FleetDispatcherAgent.readTelemetry (around : Surroundings K) (k : Nat)
    (agent : FleetDispatcherAgent K) :
    FleetDispatcherAgent K × Except OrderError (TelemetryReading K) :=
  match sendHeartbeat agent.shmClient with
  | (client, .error e) => ({ agent with shmClient := client }, .error (.client e))
  | (client, .ok ()) => ({ agent with shmClient := client }, .ok (around.reading k))

variable [FloorRing K] (double : Ieee K → Ieee K) (around : Surroundings K)
  (targetJoints : List (Ieee K))

/-- One turn of the loop; it returns the positions the next turn starts from. -/
def FleetDispatcherAgent.dispatchSetpoint (step : Nat) (currentPos : Fin DOF → Ieee K)
    (agent : FleetDispatcherAgent K) :
    FleetDispatcherAgent K × Except OrderError (Fin DOF → Ieee K) :=
  match interpPos double step currentPos targetJoints with
  | none => (agent, .error .indexError)
  | some interp =>
    match NeuroKinetic.dispatchVlaTorque Binary32.round
        (nominalTorques double step currentPos interp) (.fin 0.08) (.fin 15)
        { agent.shmClient with buf := around.segment step } with
    | (client, .error e) => ({ agent with shmClient := client }, .error (.client e))
    | (client, .ok ()) =>
      match FleetDispatcherAgent.readTelemetry around (step + 1)
          { agent with shmClient := client } with
      | (agent, .error e) => (agent, .error e)
      | (agent, .ok telem) =>
        let (diagnostic, _) := agent.diagnostic.evaluateSafetyTelemetry telem
          (around.evaluatePhysicsTwin telem)
        ({ agent with diagnostic := diagnostic }, .ok telem.positions)

def FleetDispatcherAgent.dispatchSetpoints :
    List Nat → (Fin DOF → Ieee K) → FleetDispatcherAgent K →
      FleetDispatcherAgent K × Except OrderError Unit
  | [], _, agent => (agent, .ok ())
  | step :: steps, currentPos, agent =>
    match agent.dispatchSetpoint double around targetJoints step currentPos with
    | (agent, .error e) => (agent, .error e)
    | (agent, .ok currentPos) => FleetDispatcherAgent.dispatchSetpoints steps currentPos agent

/-- The asset is released in one place, after the last setpoint. -/
def FleetDispatcherAgent.dispatchWorkOrder (agent : FleetDispatcherAgent K)
    (orderId prompt : PyStr) (targetJoints : List (Ieee K)) :
    FleetDispatcherAgent K × Except OrderError Unit :=
  match ingestOrder orderId prompt with
  | .error e => (agent, .error e)
  | .ok () =>
    match selectRobot agent.fleet with
    | none => (agent, .ok ())
    | some (selected, asset) =>
      match assignOrder asset with
      | .error e => (agent, .error e)
      | .ok () =>
        let agent := { agent with fleet := setStatus agent.fleet selected .busy }
        match requestSpatialCorridor asset.robotId targetJoints with
        | .error e => (agent, .error e)
        | .ok false => (agent, .ok ())
        | .ok true =>
          match agent.readTelemetry around 0 with
          | (agent, .error e) => (agent, .error e)
          | (agent, .ok state) =>
            match agent.dispatchSetpoints double around targetJoints (List.range 15)
                state.positions with
            | (agent, .error e) => (agent, .error e)
            | (agent, .ok ()) =>
              ({ agent with fleet := setStatus agent.fleet selected .idle },
                printLine (.ofString "\n [FleetDispatcher] Order [" ++ orderId ++
                  .ofString "] successfully executed."))

end Setpoints

section Printing

theorem PyStr.ofString_encodable (text : String) : (PyStr.ofString text).Encodable := by
  intro c member
  obtain ⟨char, _, rfl⟩ := List.mem_map.mp member
  have valid : char.toNat.isValidChar := char.valid
  have inside : char.toNat < 0x110000 := by
    rcases valid with low | ⟨_, high⟩
    · omega
    · exact high
  rwa [Fin.val_ofNat, Nat.mod_eq_of_lt inside]

theorem PyStr.encodable_append (text rest : PyStr) :
    PyStr.Encodable (text ++ rest) ↔ text.Encodable ∧ rest.Encodable := List.forall_mem_append

/-- A fixed text around a string is printed when the string is. -/
theorem printLine_eq (left right : String) (text : PyStr) :
    printLine (.ofString left ++ text ++ .ofString right) =
      if text.Encodable then .ok () else .error .unicodeEncodeError := by
  simp only [printLine, PyStr.encodable_append, PyStr.ofString_encodable, true_and, and_true]

theorem ingestOrder_eq (orderId prompt : PyStr) : ingestOrder orderId prompt =
    if orderId.Encodable ∧ prompt.Encodable then .ok () else .error .unicodeEncodeError := by
  unfold ingestOrder
  rw [printLine_eq, printLine_eq]
  by_cases named : orderId.Encodable
  · rw [if_pos named]
    simp only [named, true_and]
    rfl
  · have refused : ¬(orderId.Encodable ∧ prompt.Encodable) := fun both => named both.left
    rw [if_neg named, if_neg refused]
    rfl

def RobotAsset.Printable (asset : RobotAsset) : Prop :=
  asset.robotId.Encodable ∧ asset.assignedWorkcell.Encodable

instance (asset : RobotAsset) : Decidable asset.Printable := instDecidableAnd

theorem assignOrder_eq (asset : RobotAsset) : assignOrder asset =
    if asset.Printable then .ok () else .error .unicodeEncodeError := by
  simp only [assignOrder, printLine, PyStr.encodable_append, PyStr.ofString_encodable, true_and,
    and_true, RobotAsset.Printable]

theorem requestSpatialCorridor_eq {K : Type} {robotId : PyStr} (named : robotId.Encodable)
    (targetPos : List (Ieee K)) : requestSpatialCorridor robotId targetPos =
      if targetPos.length ≤ 5 then .error .indexError else .ok true := by
  unfold requestSpatialCorridor
  rw [printLine_eq, printLine_eq, if_pos named]
  by_cases short : targetPos.length ≤ 5
  · rw [if_pos short, List.getElem?_eq_none short]
    rfl
  · rw [if_neg short, List.getElem?_eq_getElem (not_le.mp short)]
    rfl

/-- The prints before a robot is marked succeed, and there is one to mark. -/
def FleetDispatcherAgent.TakesRobot {K : Type} (agent : FleetDispatcherAgent K)
    (orderId prompt : PyStr) : Prop :=
  orderId.Encodable ∧ prompt.Encodable ∧ ∃ robot ∈ selectRobot agent.fleet, robot.2.Printable

instance {K : Type} (agent : FleetDispatcherAgent K) (orderId prompt : PyStr) :
    Decidable (agent.TakesRobot orderId prompt) := instDecidableAnd

theorem selectRobot_eq_some {fleet : List RobotAsset} {robot : Nat × RobotAsset}
    (selected : selectRobot fleet = some robot) :
    fleet.findIdx? (fun asset => asset.status = .idle) = some robot.1 := by
  obtain ⟨i, found, at_i⟩ := Option.bind_eq_some_iff.mp selected
  obtain ⟨asset, _, rfl⟩ := Option.map_eq_some_iff.mp at_i
  exact found

end Printing

section Statuses

theorem setStatus_status (fleet : List RobotAsset) (selected : Nat) (status : RobotStatus) :
    (setStatus fleet selected status).map RobotAsset.status =
      (fleet.map RobotAsset.status).set selected status := by
  apply List.ext_getElem
  · simp [setStatus]
  · intro i _ _
    simp only [setStatus, List.getElem_map, List.getElem_modify, List.getElem_set]
    split <;> rfl

/-- Marked and released, the fleet is as it was. -/
theorem released_status {fleet : List RobotAsset} {selected : Nat}
    (idle : fleet.findIdx? (fun asset => asset.status = .idle) = some selected) :
    (setStatus (setStatus fleet selected .busy) selected .idle).map RobotAsset.status =
      fleet.map RobotAsset.status := by
  obtain ⟨inside, free, _⟩ := List.findIdx?_eq_some_iff_getElem.mp idle
  rw [setStatus_status, setStatus_status, List.set_set]
  apply List.ext_getElem
  · simp
  · intro i _ _
    rw [List.getElem_set]
    split
    next same =>
      subst same
      simpa using (of_decide_eq_true free).symm
    next => rfl

theorem leaked_status {fleet : List RobotAsset} {selected : Nat}
    (idle : fleet.findIdx? (fun asset => asset.status = .idle) = some selected) :
    (setStatus fleet selected .busy).map RobotAsset.status ≠ fleet.map RobotAsset.status := by
  obtain ⟨inside, free, _⟩ := List.findIdx?_eq_some_iff_getElem.mp idle
  intro same
  have marked := congrArg (fun statuses => statuses[selected]?) same
  rw [setStatus_status] at marked
  have free : fleet[selected].status = .idle := of_decide_eq_true free
  simp [inside, free] at marked

end Statuses

section Torques

variable {K : Type} [Field K] [LinearOrder K] {double : Ieee K → Ieee K} {step : Nat}
  {currentPos : Fin DOF → Ieee K} {targetJoints : List (Ieee K)}

/-- The torque of a joint without the hazard. -/
def setpointTorque (double : Ieee K → Ieee K) (step : Nat) (current goal : Ieee K) : Ieee K :=
  nominalTorque double current (interpJoint double step current goal)

theorem interpPos_eq (length : DOF ≤ targetJoints.length) :
    interpPos double step currentPos targetJoints = some ((List.finRange DOF).map fun j =>
      interpJoint double step (currentPos j) (targetJoints.getD j (.fin 0))) := by
  have goal : ∀ j : Fin DOF, targetJoints[(j : Nat)]? = some (targetJoints.getD j (.fin 0)) := by
    intro j
    have inside : (j : Nat) < targetJoints.length := j.isLt.trans_le length
    rw [List.getElem?_eq_getElem inside, List.getD_eq_getElem _ _ inside]
  simp only [interpPos, goal, Option.map_some]
  exact List.mapM_pure

theorem interpPos_short (short : ¬DOF ≤ targetJoints.length) :
    interpPos double step currentPos targetJoints = none := by
  cases found : interpPos double step currentPos targetJoints with
  | none => rfl
  | some interp =>
    have first : (targetJoints[targetJoints.length]?).isSome := by
      have := isSome_of_mapM found ⟨targetJoints.length, by omega⟩ (List.mem_finRange _)
      simpa only [Option.isSome_map] using this
    rw [List.getElem?_eq_none le_rfl] at first
    cases first

/-- What holds of the hazard holds of all torques when it holds of the others. -/
theorem forall_nominalTorques (double : Ieee K → Ieee K) (step : Nat)
    (currentPos : Fin DOF → Ieee K) (targetJoints : List (Ieee K)) (P : Ieee K → Prop)
    (hazard : P (.fin 42)) :
    (∀ x ∈ nominalTorques double step currentPos ((List.finRange DOF).map fun j =>
        interpJoint double step (currentPos j) (targetJoints.getD j (.fin 0))), P x) ↔
      ∀ j : Fin DOF, ¬(8 < step ∧ (j : Nat) = 5) →
        P (setpointTorque double step (currentPos j) (targetJoints.getD j (.fin 0))) := by
  have torques : (List.finRange DOF).map (fun j => nominalTorque double (currentPos j)
      (((List.finRange DOF).map fun j => interpJoint double step (currentPos j)
        (targetJoints.getD j (.fin 0))).getD j (.fin 0))) =
      (List.finRange DOF).map fun j =>
        setpointTorque double step (currentPos j) (targetJoints.getD j (.fin 0)) := by
    apply List.map_congr_left
    intro j _
    simp [setpointTorque, List.getD_eq_getElem?_getD]
  simp only [nominalTorques, torques]
  split
  next late =>
    rw [List.forall_mem_iff_forall_getElem]
    simp only [List.getElem_set, List.length_set, List.length_map, List.length_finRange,
      List.getElem_map, List.getElem_finRange]
    constructor
    · intro all j other
      have one := all j j.isLt
      rwa [if_neg (fun same => other ⟨late, same.symm⟩)] at one
    · intro others i inside
      split
      next => exact hazard
      next other => exact others ⟨i, inside⟩ fun same => other same.2.symm
  next early =>
    rw [List.forall_mem_map]
    exact ⟨fun all j _ => all j (List.mem_finRange j), fun all j _ => all j fun late => early late.1⟩

theorem length_nominalTorques (interp : List (Ieee K)) :
    (nominalTorques double step currentPos interp).length = DOF := by
  unfold nominalTorques
  split <;> simp

end Torques

section Outcomes

variable {K : Type} [Field K] [LinearOrder K] [FloorRing K] [IsStrictOrderedRing K]

theorem isSome_encode {x : K} (h : |x| ≤ 100) : (Binary32.encode (.fin x)).isSome := by
  apply Binary32.encode_isSome
  have hundred : ((100 : ℕ) : K) < Binary32.pow2 (127 : ℕ) :=
    Binary32.natCast_lt_pow2 (by norm_num)
  exact h.trans_lt hundred

omit [IsStrictOrderedRing K] in
theorem packCommand_isOk {seq : Nat} {torques : List (Ieee K)} {safetyMargin gamma : Ieee K}
    (h : Packable seq torques safetyMargin gamma) :
    ∃ slot, packCommand Binary32.round seq torques safetyMargin gamma = .ok slot := by
  obtain ⟨room, length, encodable⟩ := h
  have rounded : ∀ x ∈ safetyMargin :: gamma :: torques, (Binary32.round x).isSome := by
    intro x member
    rw [Binary32.round, Option.isSome_map]
    exact encodable x member
  obtain ⟨margin, roundedMargin⟩ := Option.isSome_iff_exists.mp (rounded safetyMargin (by simp))
  obtain ⟨stiffness, roundedGamma⟩ := Option.isSome_iff_exists.mp (rounded gamma (by simp))
  have nominal := mapM_getD (.fin 0) fun x member => rounded x
    (List.mem_cons_of_mem _ (List.mem_cons_of_mem _ member))
  exact ⟨_, packCommand_eq length room nominal roundedMargin roundedGamma⟩

/-- With the default margin and stiffness only the sequence and the torques matter. -/
theorem packable_defaults_iff (seq : Nat) {torques : List (Ieee K)}
    (length : torques.length = DOF) :
    Packable seq torques (.fin 0.08) (.fin 15) ↔
      seq < 2 ^ 64 ∧ ∀ x ∈ torques, (Binary32.encode x).isSome := by
  constructor
  · rintro ⟨room, _, encodable⟩
    exact ⟨room, fun x member => encodable x (by simp [member])⟩
  · rintro ⟨room, encodable⟩
    refine ⟨room, length, fun x member => ?_⟩
    rcases List.mem_cons.mp member with rfl | member
    · exact isSome_encode (by norm_num [abs_of_pos])
    rcases List.mem_cons.mp member with rfl | member
    · exact isSome_encode (by norm_num [abs_of_pos])
    · exact encodable x member

omit [IsStrictOrderedRing K] in
theorem dispatchVlaTorque_isOk_cases (torques : List (Ieee K)) (safetyMargin gamma : Ieee K)
    (c : NeuroKineticClient K) :
    ((c.heartbeatCounter + 1 < 2 ^ 64 ∧
        Packable (finalSeq c.buf.command.seq) torques safetyMargin gamma) ∧
        ∃ buf, NeuroKinetic.dispatchVlaTorque Binary32.round torques safetyMargin gamma c =
          (⟨c.heartbeatCounter + 1, buf⟩, .ok ())) ∨
      ¬(c.heartbeatCounter + 1 < 2 ^ 64 ∧
        Packable (finalSeq c.buf.command.seq) torques safetyMargin gamma) ∧
        ∃ client e, NeuroKinetic.dispatchVlaTorque Binary32.round torques safetyMargin gamma c =
          (client, .error e) := by
  by_cases fits : c.heartbeatCounter + 1 < 2 ^ 64 ∧
      Packable (finalSeq c.buf.command.seq) torques safetyMargin gamma
  · obtain ⟨payload, packed⟩ := packCommand_isOk fits.2
    exact Or.inl ⟨fits, _, dispatchVlaTorque_ok fits.1 packed⟩
  · right
    refine ⟨fits, ?_⟩
    by_cases room : c.heartbeatCounter + 1 < 2 ^ 64
    · cases packed : packCommand Binary32.round (finalSeq c.buf.command.seq) torques safetyMargin
          gamma with
      | ok payload => exact absurd ⟨room, packable_of_packCommand packed⟩ fits
      | error e =>
        simp only [NeuroKinetic.dispatchVlaTorque, NeuroKinetic.sendHeartbeat, if_pos room, packed]
        exact ⟨_, _, rfl⟩
    · simp only [NeuroKinetic.dispatchVlaTorque, NeuroKinetic.sendHeartbeat, if_neg room]
      exact ⟨_, _, rfl⟩

omit [Field K] [LinearOrder K] [FloorRing K] [IsStrictOrderedRing K] in
theorem FleetDispatcherAgent.readTelemetry_cases (around : Surroundings K) (k : Nat)
    (agent : FleetDispatcherAgent K) :
    (agent.shmClient.heartbeatCounter + 1 < 2 ^ 64 ∧
        ∃ buf, agent.readTelemetry around k =
          ({ agent with shmClient := ⟨agent.shmClient.heartbeatCounter + 1, buf⟩ },
            .ok (around.reading k))) ∨
      ¬agent.shmClient.heartbeatCounter + 1 < 2 ^ 64 ∧
        ∃ client e, agent.readTelemetry around k =
          ({ agent with shmClient := client }, .error e) := by
  by_cases room : agent.shmClient.heartbeatCounter + 1 < 2 ^ 64
  · left
    simp only [FleetDispatcherAgent.readTelemetry, NeuroKinetic.sendHeartbeat, if_pos room]
    exact ⟨room, _, rfl⟩
  · right
    simp only [FleetDispatcherAgent.readTelemetry, NeuroKinetic.sendHeartbeat, if_neg room]
    exact ⟨room, _, _, rfl⟩

/-- What a setpoint needs: a goal for every joint, a sequence below the end of its
64 bits, and torques that do not overflow a 32-bit float. -/
structure SetpointFits (double : Ieee K → Ieee K) (around : Surroundings K)
    (targetJoints : List (Ieee K)) (step : Nat) : Prop where
  length : DOF ≤ targetJoints.length
  sequence : finalSeq (around.segment step).command.seq < 2 ^ 64
  torques : ∀ j : Fin DOF, ¬(8 < step ∧ (j : Nat) = 5) →
    (Binary32.encode (setpointTorque double step ((around.reading step).positions j)
      (targetJoints.getD j (.fin 0)))).isSome

section Loop

variable (double : Ieee K → Ieee K) (around : Surroundings K) (targetJoints : List (Ieee K))

inductive SetpointOutcome (step : Nat) (agent : FleetDispatcherAgent K) :
    FleetDispatcherAgent K × Except OrderError (Fin DOF → Ieee K) → Prop
  | raised (after : FleetDispatcherAgent K) (e : OrderError) (fleet : after.fleet = agent.fleet)
      (refused : ¬(agent.shmClient.heartbeatCounter + 2 < 2 ^ 64 ∧
        SetpointFits double around targetJoints step)) :
      SetpointOutcome step agent (after, .error e)
  | done (after : FleetDispatcherAgent K) (fleet : after.fleet = agent.fleet)
      (counter : after.shmClient.heartbeatCounter = agent.shmClient.heartbeatCounter + 2)
      (room : agent.shmClient.heartbeatCounter + 2 < 2 ^ 64)
      (fits : SetpointFits double around targetJoints step) :
      SetpointOutcome step agent (after, .ok (around.reading (step + 1)).positions)

variable {double around targetJoints}

theorem dispatchSetpoint_outcome (step : Nat) (agent : FleetDispatcherAgent K) :
    SetpointOutcome double around targetJoints step agent
      (agent.dispatchSetpoint double around targetJoints step (around.reading step).positions) := by
  by_cases length : DOF ≤ targetJoints.length
  · have torques := forall_nominalTorques double step (around.reading step).positions
      targetJoints (fun x => (Binary32.encode x).isSome) (isSome_encode (by norm_num [abs_of_pos]))
    simp only [FleetDispatcherAgent.dispatchSetpoint, interpPos_eq length]
    generalize nominal : nominalTorques double step _ _ = xs at torques ⊢
    have packable := packable_defaults_iff (finalSeq (around.segment step).command.seq)
      (nominal ▸ length_nominalTorques _)
    rcases dispatchVlaTorque_isOk_cases xs (.fin 0.08) (.fin 15)
        { agent.shmClient with buf := around.segment step } with
      ⟨⟨_, fits⟩, buf, sent⟩ | ⟨refused, client, e, failed⟩
    · obtain ⟨sequence, encodable⟩ := packable.mp fits
      rw [sent]
      simp only
      rcases FleetDispatcherAgent.readTelemetry_cases around (step + 1)
          { agent with shmClient := ⟨agent.shmClient.heartbeatCounter + 1, buf⟩ } with
        ⟨room, buf, read⟩ | ⟨full, client, e, failed⟩
      · rw [read]
        exact .done _ rfl rfl room ⟨length, sequence, torques.mp encodable⟩
      · rw [failed]
        exact .raised _ e rfl fun fits => full fits.1
    · rw [failed]
      refine .raised _ _ rfl fun fits => refused ⟨?_, packable.mpr ⟨fits.2.sequence, ?_⟩⟩
      · exact (Nat.lt_succ_self _).trans fits.1
      · exact torques.mpr fits.2.torques
  · simp only [FleetDispatcherAgent.dispatchSetpoint, interpPos_short length]
    exact .raised _ _ rfl fun fits => length fits.2.length

variable (double around targetJoints) in
/-- The loop ends without an exception when every setpoint fits, and touches no robot. -/
theorem dispatchSetpoints_outcome (n k : Nat) (agent : FleetDispatcherAgent K)
    (room : agent.shmClient.heartbeatCounter < 2 ^ 64) :
    let after := agent.dispatchSetpoints double around targetJoints (List.range' k n)
      (around.reading k).positions
    after.1.fleet = agent.fleet ∧
      (after.2 = .ok () ↔ agent.shmClient.heartbeatCounter + 2 * n < 2 ^ 64 ∧
        ∀ step, k ≤ step → step < k + n → SetpointFits double around targetJoints step) := by
  induction n generalizing k agent with
  | zero =>
    refine ⟨rfl, fun _ => ⟨room, fun step low high => ?_⟩, fun _ => rfl⟩
    omega
  | succ n ih =>
    rw [List.range'_succ]
    simp only [FleetDispatcherAgent.dispatchSetpoints]
    have outcome : SetpointOutcome double around targetJoints k agent _ :=
      dispatchSetpoint_outcome k agent
    generalize agent.dispatchSetpoint double around targetJoints k (around.reading k).positions =
      turn at outcome ⊢
    cases outcome with
    | raised after e fleet refused =>
      refine ⟨fleet, fun ok => ?_, fun fits => ?_⟩
      · cases ok
      · refine absurd ⟨?_, fits.2 k le_rfl (by omega)⟩ refused
        have := fits.1
        omega
    | done after fleet counter room fits =>
      obtain ⟨kept, rest⟩ := ih (k + 1) after (counter ▸ room)
      refine ⟨kept.trans fleet, rest.trans ?_⟩
      rw [counter]
      constructor
      · rintro ⟨room, later⟩
        refine ⟨by omega, fun step low high => ?_⟩
        rcases low.eq_or_lt with rfl | low
        · exact fits
        · exact later step low (by omega)
      · rintro ⟨room, all⟩
        exact ⟨by omega, fun step low high => all step (by omega) (by omega)⟩

end Loop

/-- A work order that raises nowhere: 31 heartbeats are left, and every setpoint fits. -/
def WorkOrderFits (double : Ieee K → Ieee K) (around : Surroundings K)
    (targetJoints : List (Ieee K)) (heartbeatCounter : Nat) : Prop :=
  heartbeatCounter + 31 < 2 ^ 64 ∧
    ∀ step, step < 15 → SetpointFits double around targetJoints step

omit [IsStrictOrderedRing K] in
/-- An order that takes no robot changes nothing, whether it raises or not. -/
theorem dispatchWorkOrder_untaken {double : Ieee K → Ieee K} {around : Surroundings K}
    {agent : FleetDispatcherAgent K} {orderId prompt : PyStr} {targetJoints : List (Ieee K)}
    (untaken : ¬agent.TakesRobot orderId prompt) :
    (agent.dispatchWorkOrder double around orderId prompt targetJoints).1 = agent := by
  unfold FleetDispatcherAgent.dispatchWorkOrder
  rw [ingestOrder_eq]
  by_cases named : orderId.Encodable ∧ prompt.Encodable
  · rw [if_pos named]
    cases selected : selectRobot agent.fleet with
    | none => rfl
    | some robot =>
      have unnamed : ¬robot.2.Printable := fun printable =>
        untaken ⟨named.1, named.2, robot, selected, printable⟩
      simp only [assignOrder_eq, if_neg unnamed]
  · rw [if_neg named]

/-- Where a work order leaves the robot it takes: released when it raises nowhere, busy
otherwise. -/
theorem dispatchWorkOrder_fleet (double : Ieee K → Ieee K) (around : Surroundings K)
    (agent : FleetDispatcherAgent K) {orderId prompt : PyStr} (targetJoints : List (Ieee K))
    {robot : Nat × RobotAsset} (orderNamed : orderId.Encodable) (promptNamed : prompt.Encodable)
    (selected : selectRobot agent.fleet = some robot) (robotNamed : robot.2.Printable) :
    let marked := setStatus agent.fleet robot.1 .busy
    let fleet := (agent.dispatchWorkOrder double around orderId prompt targetJoints).1.fleet
    (WorkOrderFits double around targetJoints agent.shmClient.heartbeatCounter ∧
        fleet = setStatus marked robot.1 .idle) ∨
      (¬WorkOrderFits double around targetJoints agent.shmClient.heartbeatCounter ∧
        fleet = marked) := by
  unfold FleetDispatcherAgent.dispatchWorkOrder
  simp only [ingestOrder_eq, if_pos (And.intro orderNamed promptNamed), selected, assignOrder_eq,
    if_pos robotNamed, requestSpatialCorridor_eq robotNamed.1]
  by_cases short : targetJoints.length ≤ 5
  · rw [if_pos short]
    refine Or.inr ⟨fun fits => ?_, rfl⟩
    have length := (fits.2 0 (by omega)).length
    rw [DOF] at length
    omega
  · rw [if_neg short]
    rcases FleetDispatcherAgent.readTelemetry_cases around 0
        { agent with fleet := setStatus agent.fleet robot.1 .busy } with
      ⟨room, buf, read⟩ | ⟨full, client, e, failed⟩
    · simp only [read, List.range_eq_range']
      obtain ⟨kept, done⟩ := dispatchSetpoints_outcome double around targetJoints 15 0
        ⟨setStatus agent.fleet robot.1 .busy, agent.diagnostic,
          ⟨agent.shmClient.heartbeatCounter + 1, buf⟩⟩ room
      generalize FleetDispatcherAgent.dispatchSetpoints double around targetJoints _ _ _ =
        after at kept done ⊢
      obtain ⟨after, result⟩ := after
      have fits : result = .ok () ↔
          WorkOrderFits double around targetJoints agent.shmClient.heartbeatCounter := by
        refine done.trans (and_congr ?_ ?_)
        · show agent.shmClient.heartbeatCounter + 1 + 2 * 15 < 2 ^ 64 ↔ _
          omega
        · exact ⟨fun all step below => all step (Nat.zero_le _) (by omega),
            fun all step _ below => all step (by omega)⟩
      have kept : after.fleet = setStatus agent.fleet robot.1 .busy := kept
      cases result with
      | error e =>
        refine Or.inr ⟨fun all => ?_, kept⟩
        cases fits.mpr all
      | ok u => exact Or.inl ⟨fits.mp rfl, congrArg (setStatus · robot.1 .idle) kept⟩
    · simp only [failed]
      refine Or.inr ⟨fun fits => full ?_, trivial⟩
      have := fits.1
      show agent.shmClient.heartbeatCounter + 1 < 2 ^ 64
      omega

end Outcomes

/-- Every robot's status is what it was. -/
def RobotsKept (before after : List RobotAsset) : Prop :=
  after.map RobotAsset.status = before.map RobotAsset.status

/-- A work order keeps the robots' statuses exactly when it takes no robot or raises
nowhere. -/
theorem work_order_keeps_robots_iff {K : Type} [Field K] [LinearOrder K] [FloorRing K]
    [IsStrictOrderedRing K] (double : Ieee K → Ieee K) (around : Surroundings K)
    (agent : FleetDispatcherAgent K) (orderId prompt : PyStr) (targetJoints : List (Ieee K)) :
    RobotsKept agent.fleet
        (agent.dispatchWorkOrder double around orderId prompt targetJoints).1.fleet ↔
      ¬agent.TakesRobot orderId prompt ∨
        WorkOrderFits double around targetJoints agent.shmClient.heartbeatCounter := by
  by_cases takes : agent.TakesRobot orderId prompt
  · obtain ⟨orderNamed, promptNamed, robot, selected, robotNamed⟩ := takes
    have idle := selectRobot_eq_some selected
    rw [or_iff_right (not_not_intro ⟨orderNamed, promptNamed, robot, selected, robotNamed⟩)]
    rcases dispatchWorkOrder_fleet double around agent targetJoints orderNamed promptNamed selected
      robotNamed with ⟨fits, released⟩ | ⟨unfit, leaked⟩
    · rw [released]
      exact iff_of_true (released_status idle) fits
    · rw [leaked]
      exact iff_of_false (leaked_status idle) unfit
  · rw [dispatchWorkOrder_untaken takes]
    exact iff_of_true rfl (Or.inl takes)

section TwoRobots

def freshDispatcher : FleetDispatcherAgent ℚ :=
  ⟨[⟨.ofString "ROBOT-ALPHA", .idle, .ofString "CELL-1"⟩,
    ⟨.ofString "ROBOT-BETA", .idle, .ofString "CELL-2"⟩], ⟨0⟩, ⟨0, ⟨0, initialCommand⟩⟩⟩

-- a directive with a lone surrogate is refused before a robot is taken
example : ¬freshDispatcher.TakesRobot (.ofString "WO-1") [0xD800] := by decide +kernel

/-- A robot at rest in its zero position. -/
def restingRobot : Surroundings ℚ where
  reading _ := ⟨2, 0, zeroTorque, zeroTorque, zeroTorque, .fin 0, false, some 0, false⟩
  segment _ := ⟨0, initialCommand⟩
  evaluatePhysicsTwin _ := ⟨.fin 25, .fin 0⟩

theorem work_order_keeps_robots_fresh :
    RobotsKept freshDispatcher.fleet (freshDispatcher.dispatchWorkOrder id restingRobot
      (.ofString "WO-1") (.ofString "home") (List.replicate DOF (.fin 0))).1.fleet := by
  apply (work_order_keeps_robots_iff id restingRobot freshDispatcher _ _ _).mpr
  right
  have sequence : finalSeq (initialCommand (K := ℚ)).seq < 2 ^ 64 := by decide
  refine ⟨by decide, fun step _ => ⟨by decide, sequence, fun j _ => ?_⟩⟩
  have still : setpointTorque (K := ℚ) id step (.fin 0) (.fin 0) = .fin 0 := by
    simp [setpointTorque, nominalTorque, interpJoint]
  have goal : (List.replicate DOF (.fin 0 : Ieee ℚ)).getD j (.fin 0) = .fin 0 := by simp
  rw [goal]
  show (Binary32.encode (setpointTorque id step (.fin 0) (.fin 0))).isSome
  rw [still]
  exact isSome_encode (by norm_num)

/-- A work order of six joints raises in its first turn. -/
theorem work_order_leaks :
    ¬RobotsKept freshDispatcher.fleet (freshDispatcher.dispatchWorkOrder id restingRobot
      (.ofString "WO-1") (.ofString "home") (List.replicate 6 (.fin 0))).1.fleet := by
  intro kept
  have leaked : ((freshDispatcher.dispatchWorkOrder id restingRobot (.ofString "WO-1")
      (.ofString "home") (List.replicate 6 (.fin 0))).1.fleet.map RobotAsset.status) =
        [.busy, .idle] := by
    decide +kernel
  have idle : freshDispatcher.fleet.map RobotAsset.status = [.idle, .idle] := rfl
  rw [RobotsKept, leaked, idle] at kept
  cases kept

end TwoRobots

end NeuroKinetic
