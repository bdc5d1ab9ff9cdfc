import NeuroKinetic.MarginReload
import NeuroKinetic.TorqueTowards

open RidgeProjection

namespace NeuroKinetic

variable {K : Type} [Field K] [LinearOrder K]

def CommandWithin (bound : K) (input : TickInput K) : Prop :=
  ∀ i, ∃ x, input.command.nominalTorques i = .fin x ∧ |x| ≤ bound

section Command

variable [IsStrictOrderedRing K]

theorem tickCommand_within (limits : KinematicLimits K) (w : Watchdog) {input : TickInput K}
    {bound : K} (hb : 0 ≤ bound) (h : CommandWithin bound input) :
    ∃ u : Fin DOF → K, (tickCommand limits w input).nominalTorque = (fun i => .fin (u i)) ∧
      ∀ i, |u i| ≤ bound := by
  have zero : ∃ u : Fin DOF → K, zeroTorque = (fun i => Ieee.fin (u i)) ∧ ∀ i, |u i| ≤ bound :=
    ⟨fun _ => 0, rfl, fun _ => by rwa [abs_zero]⟩
  choose x hx hbound using h
  rcases tickCommand_cases limits w input with cleared | kept
  · rwa [cleared]
  · rw [kept]
    exact ⟨x, funext hx, hbound⟩

theorem tickCommand_margin (limits : KinematicLimits K) (w : Watchdog) {input : TickInput K}
    (finite : ∃ m, input.command.obstacleSafetyMargin = .fin m) :
    ∃ margin, 0.02 ≤ margin ∧
      (tickCommand limits w input).limits.minObstacleDistance = .fin margin := by
  obtain ⟨m, hm⟩ := finite
  have ordered : (ingestCommand input.command).dynamicMargin ≠ .nan := by
    rcases ingestCommand_margin input.command with slot | default
    · simp [slot, hm]
    · rw [default]
      exact defaultMargin_ne_nan
  obtain ⟨margin, installed, least, _⟩ := stdClamp_margin ordered
  exact ⟨margin, least, installed⟩

variable [SquareRoot K]

theorem obstacleRestricts_of_hardware {limits : KinematicLimits K} (ht : limits.torqueMax 5 = 87)
    (eePos : Fin 3 → Ieee K) (obstacles : List (Obstacle K)) {u : Fin DOF → K}
    (hu : |u 5| ≤ 87) : ObstacleRestricts limits eePos obstacles u := by
  rintro ⟨hne, violated⟩
  obtain ⟨obs, rest, rfl⟩ := List.exists_cons_of_ne_nil hne
  simp only [obstacleBound, obstacleTorqueBound] at violated ⊢
  split at violated
  next close => rw [if_pos close]
  next =>
    have most := (abs_le.mp hu).2
    rw [ht] at violated
    norm_num at violated
    linarith

end Command

section Margin

variable [IsStrictOrderedRing K] [SquareRoot K] [LawfulSquareRoot K]

/-- The daemon's end effector sits inside the protected bubble for every margin
the reload can install. -/
theorem daemon_obstacle_close {limits : KinematicLimits K} {margin : K} (hm : 0.02 ≤ margin)
    (installed : limits.minObstacleDistance = .fin margin) {obs : Obstacle K}
    (hobs : daemonObstacles.head? = some obs) :
    computeObstacleBarrier limits daemonState.endEffectorPos obs < .fin 0.05 := by
  cases Option.some.inj hobs
  have root := daemon_obstacle_near (K := K)
  simp only [computeObstacleBarrier, daemon_obstacle_gap, installed, Ieee.fin_add_fin, Ieee.fin_sub_fin,
    Ieee.fin_lt_fin]
  norm_num at hm root ⊢
  linarith

theorem obstacleRestricts_of_margin {limits : KinematicLimits K} {w : Watchdog}
    {input : TickInput K} (finite : ∃ m, input.command.obstacleSafetyMargin = .fin m)
    (u : Fin DOF → K) :
    ObstacleRestricts (tickCommand limits w input).limits daemonState.endEffectorPos
      daemonObstacles u := by
  obtain ⟨margin, least, installed⟩ := tickCommand_margin limits w finite
  intro _
  exact if_pos (daemon_obstacle_close least installed rfl)

end Margin

section Run

variable [IsStrictOrderedRing K]

/-- Every joint of the daemon's plant approaches both of its limits safely. -/
structure PlantSafe (s : DaemonState K) (q qDot : Fin DOF → K) : Prop where
  plant : PlantAt s.state q qDot
  arm : DaemonArm s.limits
  endEffector : s.state.endEffectorPos = daemonState.endEffectorPos
  upper : ∀ i, Approach (2.89 - q i) (qDot i)
  lower : ∀ i, Approach (q i - -2.89) (-qDot i)

theorem daemonStart_safe (now : Int) :
    PlantSafe (daemonStart now : DaemonState K) ![0, 0.2, 0, -1.2, 0, 2.80, 0] (fun _ => 0) := by
  refine ⟨⟨rfl, rfl⟩, DaemonArm.start, rfl, fun i => Approach.rest ?_, fun i => ?_⟩
  · fin_cases i <;> norm_num
  · rw [neg_zero]
    apply Approach.rest
    fin_cases i <;> norm_num

variable [SquareRoot K] [ExactSolver K]

theorem PlantSafe.tick {s : DaemonState K} {q qDot u : Fin DOF → K} (h : PlantSafe s q qDot)
    (input : TickInput K)
    (command : (tickCommand s.limits s.watchdog input).nominalTorque = fun i => .fin (u i))
    (hu : ∀ i, |u i| ≤ 1000)
    (restricts : ObstacleRestricts (tickCommand s.limits s.watchdog input).limits
      s.state.endEffectorPos daemonObstacles u) :
    PlantSafe (tick daemonObstacles s input).1
      (fun i => (jointStep (q i) (qDot i) (filteredTorque
        (tickCommand s.limits s.watchdog input).limits q s.state.endEffectorPos
        daemonObstacles u i)).1)
      (fun i => (jointStep (q i) (qDot i) (filteredTorque
        (tickCommand s.limits s.watchdog input).limits q s.state.endEffectorPos
        daemonObstacles u i)).2) := by
  have arm := h.arm.tickCommand s.watchdog input
  have applied := tick_applied daemonObstacles h.arm h.plant command
  refine ⟨tick_plantAt h.plant applied, arm, h.endEffector, fun i => ?_, fun i => ?_⟩
  · have towards := torqueTowards_upper (q := q) arm.standard (hu i) restricts
    rw [arm.qMax] at towards
    exact (h.upper i).jointStep_upper towards
  · have towards := torqueTowards_lower (q := q) arm.standard (hu i) restricts
    rw [arm.qMin] at towards
    exact (h.lower i).jointStep_lower towards

/-- The run lemma: commands that every tick can restrict keep the plant safe. -/
theorem runTicks_safe {inputs : List (TickInput K)} {s : DaemonState K} {q qDot : Fin DOF → K}
    (h : PlantSafe s q qDot)
    (commands : ∀ input ∈ inputs, ∀ s : DaemonState K, DaemonArm s.limits →
      s.state.endEffectorPos = daemonState.endEffectorPos →
      ∃ u : Fin DOF → K, (tickCommand s.limits s.watchdog input).nominalTorque =
          (fun i => .fin (u i)) ∧ (∀ i, |u i| ≤ 1000) ∧
        ObstacleRestricts (tickCommand s.limits s.watchdog input).limits
          s.state.endEffectorPos daemonObstacles u) :
    ∃ q' qDot', PlantSafe (runTicks daemonObstacles s inputs) q' qDot' := by
  refine List.foldlRecOn (motive := fun s => ∃ q qDot, PlantSafe s q qDot) inputs _ ⟨q, qDot, h⟩ ?_
  rintro s ⟨q, qDot, safe⟩ input member
  obtain ⟨u, command, hu, restricts⟩ := commands input member s safe.arm safe.endEffector
  exact ⟨_, _, safe.tick input command hu restricts⟩

omit [ExactSolver K] [SquareRoot K] in
theorem PlantSafe.position {s : DaemonState K} {q qDot : Fin DOF → K} (h : PlantSafe s q qDot)
    (i : Fin DOF) : .fin (-2.89 - 0.045) ≤ s.state.q i ∧ s.state.q i ≤ .fin (2.89 + 0.045) := by
  have upper := (h.upper i).excursion
  have lower := (h.lower i).excursion
  simp only [h.plant.position, Ieee.fin_le_fin]
  constructor
  · linarith
  · linarith

theorem runTicks_hardware_safe (now : Int) {inputs : List (TickInput K)}
    (commands : ∀ input ∈ inputs, CommandWithin 87 input) :
    ∃ q qDot, PlantSafe (runTicks daemonObstacles (daemonStart now) inputs) q qDot := by
  apply runTicks_safe (daemonStart_safe now)
  intro input member s arm _
  obtain ⟨u, command, hu⟩ := tickCommand_within s.limits s.watchdog
    (by norm_num) (commands input member)
  refine ⟨u, command, fun i => (hu i).trans (by norm_num), ?_⟩
  exact obstacleRestricts_of_hardware ((arm.tickCommand s.watchdog input).torqueMax 5) _ _ (hu 5)

/-- The joint limits hold up to 0.045 rad, for every run whose commands the
hardware can execute. -/
theorem joint_limit_overshoot (now : Int) (inputs : List (TickInput K))
    (commands : ∀ input ∈ inputs, CommandWithin 87 input) (i : Fin DOF) :
    .fin ((daemonLimits : KinematicLimits K).qMin i - 0.045) ≤
        (runTicks daemonObstacles (daemonStart now) inputs).state.q i ∧
      (runTicks daemonObstacles (daemonStart now) inputs).state.q i ≤
        .fin ((daemonLimits : KinematicLimits K).qMax i + 0.045) := by
  obtain ⟨q, qDot, safe⟩ := runTicks_hardware_safe now commands
  exact safe.position i

end Run

/-- Ticks of 2 ms, each with a heartbeat and a command of its own, of that torque on all joints. -/
def streamedTicks {K : Type} (torque margin : K) (n : Nat) : List (TickInput K) :=
  (List.range n).map fun k : Nat =>
    ⟨2000000 * k, k + 1, 2 * k + 2, fun _ => .fin torque, 1, .fin margin, 2 * k + 2⟩

theorem streamedTicks_within {torque margin : ℝ} {n : Nat} (nonneg : 0 ≤ torque) :
    ∀ input ∈ streamedTicks torque margin n, CommandWithin torque input := by
  intro input member i
  obtain ⟨k, _, rfl⟩ := List.mem_map.mp member
  exact ⟨torque, rfl, (abs_of_nonneg nonneg).le⟩

theorem joint_limit_overshoot_hazard :
    .fin ((daemonLimits : KinematicLimits ℝ).qMin 5 - 0.045) ≤
        (runTicks daemonObstacles (daemonStart 0) (streamedTicks 87 0.08 1000)).state.q 5 ∧
      (runTicks daemonObstacles (daemonStart 0) (streamedTicks 87 0.08 1000)).state.q 5 ≤
        .fin ((daemonLimits : KinematicLimits ℝ).qMax 5 + 0.045) := by
  apply joint_limit_overshoot
  exact streamedTicks_within (by norm_num)

section ClosedLoop

variable [IsStrictOrderedRing K] [SquareRoot K] [LawfulSquareRoot K] [ExactSolver K]

/-- Bounded excursion of the closed loop, for commands of up to 1000 Nm. -/
theorem bounded_excursion (now : Int) (inputs : List (TickInput K))
    (commands : ∀ input ∈ inputs, CommandWithin 1000 input)
    (margins : ∀ input ∈ inputs, ∃ m, input.command.obstacleSafetyMargin = .fin m) (i : Fin DOF) :
    .fin ((daemonLimits : KinematicLimits K).qMin i - 0.1) ≤
        (runTicks daemonObstacles (daemonStart now) inputs).state.q i ∧
      (runTicks daemonObstacles (daemonStart now) inputs).state.q i ≤
        .fin ((daemonLimits : KinematicLimits K).qMax i + 0.1) := by
  obtain ⟨q, qDot, safe⟩ : ∃ q qDot,
      PlantSafe (runTicks daemonObstacles (daemonStart now) inputs) q qDot := by
    apply runTicks_safe (daemonStart_safe now)
    intro input member s _ position
    obtain ⟨u, command, hu⟩ := tickCommand_within s.limits s.watchdog
      (by norm_num) (commands input member)
    refine ⟨u, command, hu, ?_⟩
    rw [position]
    exact obstacleRestricts_of_margin (margins input member) u
  have wide := safe.position i
  simp only [safe.plant.position, Ieee.fin_le_fin, daemonLimits] at wide ⊢
  norm_num at wide ⊢
  constructor
  · linarith [wide.1]
  · linarith [wide.2]

end ClosedLoop

theorem bounded_excursion_oversized :
    .fin ((daemonLimits : KinematicLimits ℝ).qMin 5 - 0.1) ≤
        (runTicks daemonObstacles (daemonStart 0) (streamedTicks 1000 0.5 1000)).state.q 5 ∧
      (runTicks daemonObstacles (daemonStart 0) (streamedTicks 1000 0.5 1000)).state.q 5 ≤
        .fin ((daemonLimits : KinematicLimits ℝ).qMax 5 + 0.1) := by
  apply bounded_excursion
  · exact streamedTicks_within (by norm_num)
  · intro input member
    obtain ⟨k, _, rfl⟩ := List.mem_map.mp member
    exact ⟨0.5, rfl⟩

end NeuroKinetic
