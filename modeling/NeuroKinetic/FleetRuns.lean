import NeuroKinetic.WorkOrders

namespace NeuroKinetic

def idleRobots (fleet : List RobotAsset) : Nat := fleet.countP fun asset => asset.status = .idle

/-- An order, with what its process meets outside. -/
structure WorkOrder (K : Type) where
  around : Surroundings K
  orderId : PyStr
  prompt : PyStr
  targetJoints : List (Ieee K)

section Heartbeats

variable {K : Type}

theorem sendHeartbeat_counter (c : NeuroKineticClient K) :
    (sendHeartbeat c).1.heartbeatCounter = c.heartbeatCounter + 1 := by
  by_cases room : c.heartbeatCounter + 1 < 2 ^ 64
  · simp only [sendHeartbeat, if_pos room]
  · simp only [sendHeartbeat, if_neg room]

variable [Field K]

theorem dispatchVlaTorque_counter (packFloat : Ieee K → Option (Ieee K)) (torques : List (Ieee K))
    (safetyMargin gamma : Ieee K) (c : NeuroKineticClient K) :
    (dispatchVlaTorque packFloat torques safetyMargin gamma c).1.heartbeatCounter =
      c.heartbeatCounter + 1 := by
  have beat := sendHeartbeat_counter c
  unfold dispatchVlaTorque
  split
  next client e raised => rwa [raised] at beat
  next client sent =>
    rw [sent] at beat
    split
    next => exact beat
    next => exact beat

end Heartbeats

section Setpoints

variable {K : Type} [Field K] [LinearOrder K] [FloorRing K] (double : Ieee K → Ieee K)
  (around : Surroundings K) (targetJoints : List (Ieee K))

omit [Field K] [LinearOrder K] [FloorRing K] in
theorem FleetDispatcherAgent.readTelemetry_kept (k : Nat) (agent : FleetDispatcherAgent K) :
    (agent.readTelemetry around k).1.fleet = agent.fleet ∧
      (agent.readTelemetry around k).1.shmClient.heartbeatCounter =
        agent.shmClient.heartbeatCounter + 1 := by
  have beat := sendHeartbeat_counter agent.shmClient
  unfold FleetDispatcherAgent.readTelemetry
  split
  next client e raised => exact ⟨rfl, by rwa [raised] at beat⟩
  next client sent => exact ⟨rfl, by rwa [sent] at beat⟩

/-- Work of `turns` turns, of two heartbeats each; only work that raises has fewer. -/
structure TurnsBeat {ε α : Type} (turns : Nat) (agent : FleetDispatcherAgent K)
    (after : FleetDispatcherAgent K × Except ε α) : Prop where
  fleet : after.1.fleet = agent.fleet
  least : agent.shmClient.heartbeatCounter ≤ after.1.shmClient.heartbeatCounter
  most : after.1.shmClient.heartbeatCounter ≤ agent.shmClient.heartbeatCounter + 2 * turns
  done : ∀ a, after.2 = .ok a →
    after.1.shmClient.heartbeatCounter = agent.shmClient.heartbeatCounter + 2 * turns

theorem dispatchSetpoint_beats (step : Nat) (currentPos : Fin DOF → Ieee K)
    (agent : FleetDispatcherAgent K) :
    TurnsBeat 1 agent (agent.dispatchSetpoint double around targetJoints step currentPos) := by
  unfold FleetDispatcherAgent.dispatchSetpoint
  split
  next =>
    refine ⟨rfl, le_rfl, Nat.le_add_right _ _, fun a ok => ?_⟩
    cases ok
  next interp _ =>
    have sent := dispatchVlaTorque_counter Binary32.round
      (nominalTorques double step currentPos interp) (.fin 0.08) (.fin 15)
      { agent.shmClient with buf := around.segment step }
    split
    next client e raised =>
      rw [raised] at sent
      simp only at sent
      refine ⟨rfl, by simp only; omega, by simp only; omega, fun a ok => ?_⟩
      cases ok
    next client returned =>
      rw [returned] at sent
      simp only at sent
      obtain ⟨fleet, beat⟩ := FleetDispatcherAgent.readTelemetry_kept around (step + 1)
        { agent with shmClient := client }
      split
      next after e raised =>
        rw [raised] at fleet beat
        simp only at fleet beat
        refine ⟨fleet, by simp only; omega, by simp only; omega, fun a ok => ?_⟩
        cases ok
      next after telem read =>
        rw [read] at fleet beat
        simp only at fleet beat
        exact ⟨fleet, by simp only; omega, by simp only; omega, fun a ok => by simp only; omega⟩

theorem dispatchSetpoints_beats (steps : List Nat) (currentPos : Fin DOF → Ieee K)
    (agent : FleetDispatcherAgent K) : TurnsBeat steps.length agent
      (agent.dispatchSetpoints double around targetJoints steps currentPos) := by
  induction steps generalizing currentPos agent with
  | nil => exact ⟨rfl, le_rfl, le_rfl, fun _ _ => rfl⟩
  | cons step rest ih =>
    have turn := dispatchSetpoint_beats double around targetJoints step currentPos agent
    unfold FleetDispatcherAgent.dispatchSetpoints
    rw [List.length_cons]
    split
    next after e raised =>
      rw [raised] at turn
      have most := turn.most
      refine ⟨turn.fleet, turn.least, by simp only at most ⊢; omega, fun a ok => ?_⟩
      cases ok
    next after pos done =>
      rw [done] at turn
      have beats := turn.done pos rfl
      have later := ih pos after
      simp only at beats
      refine ⟨later.fleet.trans turn.fleet, ?_, ?_, fun a ok => ?_⟩
      · have := later.least
        omega
      · have := later.most
        omega
      · have := later.done a ok
        omega

/-- What an order may do: take no robot and leave everything alone, raise and leave its robot
marked, or release it after 31 heartbeats. -/
inductive OrderEffect (orderId prompt : PyStr) (agent : FleetDispatcherAgent K) :
    FleetDispatcherAgent K × Except OrderError Unit → Prop
  | untaken (untaken : ¬agent.TakesRobot orderId prompt) (result : Except OrderError Unit) :
      OrderEffect orderId prompt agent (agent, result)
  | raised (takes : agent.TakesRobot orderId prompt) (selected : Nat)
      (idle : agent.fleet.findIdx? (fun asset => asset.status = .idle) = some selected)
      (after : FleetDispatcherAgent K) (e : OrderError)
      (fleet : after.fleet = setStatus agent.fleet selected .busy)
      (least : agent.shmClient.heartbeatCounter ≤ after.shmClient.heartbeatCounter)
      (most : after.shmClient.heartbeatCounter ≤ agent.shmClient.heartbeatCounter + 31) :
      OrderEffect orderId prompt agent (after, .error e)
  | executed (takes : agent.TakesRobot orderId prompt) (selected : Nat)
      (idle : agent.fleet.findIdx? (fun asset => asset.status = .idle) = some selected)
      (after : FleetDispatcherAgent K)
      (fleet : after.fleet = setStatus (setStatus agent.fleet selected .busy) selected .idle)
      (beats : after.shmClient.heartbeatCounter = agent.shmClient.heartbeatCounter + 31) :
      OrderEffect orderId prompt agent (after, .ok ())

theorem dispatchWorkOrder_effect (orderId prompt : PyStr) (agent : FleetDispatcherAgent K) :
    OrderEffect orderId prompt agent
      (agent.dispatchWorkOrder double around orderId prompt targetJoints) := by
  by_cases takes : agent.TakesRobot orderId prompt
  · obtain ⟨orderNamed, promptNamed, robot, selected, robotNamed⟩ := id takes
    have selected : selectRobot agent.fleet = some robot := selected
    have idle := selectRobot_eq_some selected
    unfold FleetDispatcherAgent.dispatchWorkOrder
    simp only [ingestOrder_eq, if_pos (And.intro orderNamed promptNamed), selected, assignOrder_eq,
      if_pos robotNamed, requestSpatialCorridor_eq robotNamed.1, printLine_eq, if_pos orderNamed]
    by_cases short : targetJoints.length ≤ 5
    · rw [if_pos short]
      exact .raised takes robot.1 idle _ _ rfl le_rfl (Nat.le_add_right _ _)
    simp only [if_neg short]
    obtain ⟨fleet, beat⟩ := FleetDispatcherAgent.readTelemetry_kept around 0
      { agent with fleet := setStatus agent.fleet robot.1 .busy }
    split
    next after e raised =>
      rw [raised] at fleet beat
      simp only at fleet beat
      exact .raised takes robot.1 idle after e fleet (by omega) (by omega)
    next after state read =>
      rw [read] at fleet beat
      simp only at fleet beat
      have turns := dispatchSetpoints_beats double around targetJoints (List.range 15)
        state.positions after
      rw [List.length_range] at turns
      split
      next last e raised =>
        rw [raised] at turns
        have least := turns.least
        have most := turns.most
        simp only at least most
        exact .raised takes robot.1 idle last e (turns.fleet.trans fleet) (by omega) (by omega)
      next last done =>
        rw [done] at turns
        have beats := turns.done () rfl
        simp only at beats
        have kept : last.fleet = setStatus agent.fleet robot.1 .busy := turns.fleet.trans fleet
        exact .executed takes robot.1 idle _ (by simp only [kept]) (by simp only; omega)
  · have kept : (agent.dispatchWorkOrder double around orderId prompt targetJoints).1 = agent :=
      dispatchWorkOrder_untaken takes
    generalize agent.dispatchWorkOrder double around orderId prompt targetJoints = after at kept
    obtain ⟨after, result⟩ := after
    subst kept
    exact .untaken takes result

end Setpoints

section Statuses

theorem setStatus_robots (fleet : List RobotAsset) (selected : Nat) (status : RobotStatus) :
    (setStatus fleet selected status).map RobotAsset.robotId = fleet.map RobotAsset.robotId := by
  apply List.ext_getElem
  · simp [setStatus]
  · intro i _ _
    simp only [setStatus, List.getElem_map, List.getElem_modify]
    split <;> rfl

theorem idleRobots_eq (fleet : List RobotAsset) :
    idleRobots fleet = (fleet.map RobotAsset.status).countP fun status => status = .idle := by
  rw [List.countP_map]
  rfl

variable {fleet : List RobotAsset} {selected : Nat}

theorem idleRobots_marked
    (idle : fleet.findIdx? (fun asset => asset.status = .idle) = some selected) :
    idleRobots (setStatus fleet selected .busy) + 1 = idleRobots fleet := by
  obtain ⟨inside, free, _⟩ := List.findIdx?_eq_some_iff_getElem.mp idle
  have some : 0 < idleRobots fleet := List.countP_pos_iff.mpr ⟨_, List.getElem_mem inside, free⟩
  have free : fleet[selected].status = .idle := of_decide_eq_true free
  have counted := idleRobots_eq fleet
  rw [idleRobots_eq, setStatus_status, List.countP_set (by simpa using inside)]
  simp only [List.getElem_map, free, decide_true, if_true, reduceCtorEq, decide_false,
    Bool.false_eq_true, if_false]
  omega

theorem marked_held (idle : fleet.findIdx? (fun asset => asset.status = .idle) = some selected)
    (status : RobotStatus) {i : Nat} {asset : RobotAsset} (busy : asset.status ≠ .idle)
    {after : List RobotAsset} (found : fleet[i]? = some asset) (h : after[i]? = some asset) :
    (setStatus after selected status)[i]? = some asset := by
  obtain ⟨inside, free, _⟩ := List.findIdx?_eq_some_iff_getElem.mp idle
  have other : selected ≠ i := by
    intro same
    rw [← same, List.getElem?_eq_getElem inside] at found
    rw [Option.some.inj found] at free
    exact busy (of_decide_eq_true free)
  rw [setStatus, List.getElem?_modify_ne _ _ other, h]

end Statuses

section Account

variable {K : Type}

/-- The account of the orders between two states of the agent. -/
structure FleetAccount (lost executed : Nat) (before after : FleetDispatcherAgent K) : Prop where
  idle : idleRobots after.fleet + lost = idleRobots before.fleet
  robots : after.fleet.map RobotAsset.robotId = before.fleet.map RobotAsset.robotId
  held : ∀ (i : Nat) (asset : RobotAsset), before.fleet[i]? = some asset → asset.status ≠ .idle →
    after.fleet[i]? = some asset
  least : before.shmClient.heartbeatCounter + 31 * executed ≤ after.shmClient.heartbeatCounter
  most : after.shmClient.heartbeatCounter ≤
    before.shmClient.heartbeatCounter + 31 * (executed + lost)

theorem FleetAccount.refl (agent : FleetDispatcherAgent K) : FleetAccount 0 0 agent agent :=
  ⟨rfl, rfl, fun _ _ found _ => found, le_rfl, le_rfl⟩

theorem FleetAccount.trans {lost executed lost' executed' : Nat}
    {first second third : FleetDispatcherAgent K} (h : FleetAccount lost executed first second)
    (h' : FleetAccount lost' executed' second third) :
    FleetAccount (lost + lost') (executed + executed') first third := by
  refine ⟨?_, h'.robots.trans h.robots, fun i asset found busy => ?_, ?_, ?_⟩
  · have := h.idle
    have := h'.idle
    omega
  · exact h'.held i asset (h.held i asset found busy) busy
  · have := h.least
    have := h'.least
    omega
  · have := h.most
    have := h'.most
    omega

theorem not_takesRobot_of_busy {agent : FleetDispatcherAgent K} (busy : idleRobots agent.fleet = 0)
    (orderId prompt : PyStr) : ¬agent.TakesRobot orderId prompt := by
  rintro ⟨_, _, robot, selected, _⟩
  have := idleRobots_marked (selectRobot_eq_some selected)
  omega

end Account

section Runs

variable {K : Type} [Field K] [LinearOrder K] [FloorRing K] (double : Ieee K → Ieee K)

def FleetDispatcherAgent.dispatch (agent : FleetDispatcherAgent K) (order : WorkOrder K) :
    FleetDispatcherAgent K × Except OrderError Unit :=
  agent.dispatchWorkOrder double order.around order.orderId order.prompt order.targetJoints

/-- One order after another. -/
def FleetDispatcherAgent.dispatchWorkOrders (agent : FleetDispatcherAgent K)
    (orders : List (WorkOrder K)) : FleetDispatcherAgent K :=
  orders.foldl (fun agent order => (agent.dispatch double order).1) agent

/-- The orders that take a robot and raise to their callers. -/
def FleetDispatcherAgent.lostOrders : FleetDispatcherAgent K → List (WorkOrder K) → Nat
  | _, [] => 0
  | agent, order :: rest =>
    let after := agent.dispatch double order
    (match after.2 with
      | .ok () => 0
      | .error _ => if agent.TakesRobot order.orderId order.prompt then 1 else 0) +
        FleetDispatcherAgent.lostOrders after.1 rest

/-- The orders that are carried out: they take a robot, and nothing raises. -/
def FleetDispatcherAgent.executedOrders : FleetDispatcherAgent K → List (WorkOrder K) → Nat
  | _, [] => 0
  | agent, order :: rest =>
    let after := agent.dispatch double order
    (match after.2 with
      | .ok () => if agent.TakesRobot order.orderId order.prompt then 1 else 0
      | .error _ => 0) + FleetDispatcherAgent.executedOrders after.1 rest

omit [Field K] [LinearOrder K] [FloorRing K] in
theorem OrderEffect.account {orderId prompt : PyStr} {agent : FleetDispatcherAgent K}
    {after : FleetDispatcherAgent K × Except OrderError Unit}
    (h : OrderEffect orderId prompt agent after) :
    FleetAccount
      (match after.2 with
        | .ok () => 0
        | .error _ => if agent.TakesRobot orderId prompt then 1 else 0)
      (match after.2 with
        | .ok () => if agent.TakesRobot orderId prompt then 1 else 0
        | .error _ => 0) agent after.1 := by
  cases h with
  | untaken untaken result =>
    simp only [if_neg untaken]
    cases result <;> exact .refl agent
  | raised takes selected idle after e fleet least most =>
    simp only [if_pos takes]
    refine ⟨?_, ?_, fun i asset found busy => ?_, least, most⟩
    · rw [fleet]
      exact idleRobots_marked idle
    · rw [fleet, setStatus_robots]
    · rw [fleet]
      exact marked_held idle .busy busy found found
  | executed takes selected idle after fleet beats =>
    simp only [if_pos takes]
    refine ⟨?_, ?_, fun i asset found busy => ?_, by omega, by omega⟩
    · rw [fleet, idleRobots_eq, released_status idle, ← idleRobots_eq, Nat.add_zero]
    · rw [fleet, setStatus_robots, setStatus_robots]
    · rw [fleet]
      exact marked_held idle .idle busy found (marked_held idle .busy busy found found)

theorem dispatchWorkOrders_account (agent : FleetDispatcherAgent K) (orders : List (WorkOrder K)) :
    FleetAccount (agent.lostOrders double orders) (agent.executedOrders double orders) agent
      (agent.dispatchWorkOrders double orders) := by
  induction orders generalizing agent with
  | nil => exact .refl agent
  | cons order rest ih =>
    have effect : OrderEffect order.orderId order.prompt agent (agent.dispatch double order) :=
      dispatchWorkOrder_effect double order.around order.targetJoints _ _ agent
    exact effect.account.trans (ih _)

theorem dispatch_untaken {agent : FleetDispatcherAgent K} {order : WorkOrder K}
    (untaken : ¬agent.TakesRobot order.orderId order.prompt) :
    (agent.dispatch double order).1 = agent := by
  have effect : OrderEffect order.orderId order.prompt agent (agent.dispatch double order) :=
    dispatchWorkOrder_effect double order.around order.targetJoints _ _ agent
  generalize agent.dispatch double order = after at effect
  cases effect with
  | untaken => rfl
  | raised takes => exact absurd takes untaken
  | executed takes => exact absurd takes untaken

theorem dispatchWorkOrders_starved {agent : FleetDispatcherAgent K}
    (busy : idleRobots agent.fleet = 0) (orders : List (WorkOrder K)) :
    agent.dispatchWorkOrders double orders = agent := by
  induction orders with
  | nil => rfl
  | cons order rest ih =>
    have kept : (agent.dispatch double order).1 = agent :=
      dispatch_untaken double (not_takesRobot_of_busy busy order.orderId order.prompt)
    rw [FleetDispatcherAgent.dispatchWorkOrders, List.foldl_cons, kept]
    exact ih

/-- Every order that raises once it has a robot takes it out of service for good: at most as
many do as robots were idle, and once none is, no later order changes anything or reaches the
daemon. An order without a robot changes nothing. -/
theorem fleet_runs_account (agent : FleetDispatcherAgent K) (orders : List (WorkOrder K)) :
    let after := agent.dispatchWorkOrders double orders
    FleetAccount (agent.lostOrders double orders) (agent.executedOrders double orders) agent
        after ∧
      agent.lostOrders double orders ≤ idleRobots agent.fleet ∧
      (agent.lostOrders double orders = idleRobots agent.fleet →
        ∀ later, agent.dispatchWorkOrders double (orders ++ later) = after) ∧
      ∀ order, ¬after.TakesRobot order.orderId order.prompt →
        (after.dispatch double order).1 = after := by
  intro after
  have account : FleetAccount _ _ agent after := dispatchWorkOrders_account double agent orders
  have idle := account.idle
  refine ⟨account, by omega, fun all later => ?_, fun order => dispatch_untaken double⟩
  have starved : idleRobots after.fleet = 0 := by omega
  have kept := dispatchWorkOrders_starved double starved later
  rw [FleetDispatcherAgent.dispatchWorkOrders, List.foldl_append]
  exact kept

end Runs

end NeuroKinetic
