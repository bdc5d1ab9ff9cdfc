import NeuroKinetic.JointExcursion

open RidgeProjection

namespace NeuroKinetic

variable {K : Type} [Field K] [LinearOrder K]

/-- Finite plant data under the daemon's limits, at a speed the damping sustains
against full torque. -/
structure PlantSlow (s : DaemonState K) (q qDot : Fin DOF → K) : Prop where
  plant : PlantAt s.state q qDot
  arm : DaemonArm s.limits
  speed : ∀ i, |qDot i| ≤ 0.8527

variable [IsStrictOrderedRing K]

theorem jointStep_speed {q qDot torque : K} (speed : |qDot| ≤ 0.8527) (full : |torque| ≤ 87.0001) :
    |(jointStep q qDot torque).2| ≤ 0.8527 := by
  obtain ⟨speedLow, speedHigh⟩ := abs_le.mp speed
  obtain ⟨torqueLow, torqueHigh⟩ := abs_le.mp full
  have forwards : (qDot + torque / 10 * 0.002) * 0.98 ≤ 0.8527 := next_speed_le speedHigh torqueHigh
  have backwards : (-qDot + -torque / 10 * 0.002) * 0.98 ≤ 0.8527 :=
    next_speed_le (neg_le.mp speedLow) (neg_le.mp torqueLow)
  rw [abs_le]
  refine ⟨?_, forwards⟩
  simp only [jointStep]
  linarith

theorem daemonStart_slow (now : Int) :
    PlantSlow (daemonStart now : DaemonState K) ![0, 0.2, 0, -1.2, 0, 2.80, 0] (fun _ => 0) := by
  refine ⟨⟨rfl, rfl⟩, DaemonArm.start, fun i => ?_⟩
  rw [abs_zero]
  norm_num

variable [SquareRoot K] [ExactSolver K]

/-- Whatever the slot holds, the tick applies a finite torque: a command with a
non-finite entry is refused and replaced by the zero of the fallback. -/
theorem PlantSlow.applied (obstacles : List (Obstacle K)) {s : DaemonState K}
    {q qDot : Fin DOF → K} (h : PlantSlow s q qDot) (input : TickInput K) :
    ∃ torque : Fin DOF → K, (tick obstacles s input).2.safety.safeTorque =
      (fun i => .fin (torque i)) ∧ ∀ i, |torque i| ≤ 87.0001 := by
  have standard := (h.arm.tickCommand s.watchdog input).standard
  rcases Ieee.allFinite?_cases (tickCommand s.limits s.watchdog input).nominalTorque with
    ⟨u, command⟩ | refused
  · refine ⟨_, tick_applied obstacles h.arm h.plant command, fun i => abs_le.mpr ⟨?_, ?_⟩⟩
    · exact neg_le_filteredTorque standard
    · exact filteredTorque_le_ceiling standard
  · refine ⟨fun _ => 0, ?_, fun i => ?_⟩
    · simp only [tick, filterTorques, h.plant.position, h.plant.velocity, Ieee.allFinite?_fin,
        refused]
      rfl
    · rw [abs_zero]
      norm_num

theorem PlantSlow.tick {obstacles : List (Obstacle K)} {s : DaemonState K}
    {q qDot torque : Fin DOF → K} (h : PlantSlow s q qDot) {input : TickInput K}
    (applied : (tick obstacles s input).2.safety.safeTorque = fun i => .fin (torque i))
    (full : ∀ i, |torque i| ≤ 87.0001) :
    PlantSlow (tick obstacles s input).1
      (fun i => (jointStep (q i) (qDot i) (torque i)).1)
      (fun i => (jointStep (q i) (qDot i) (torque i)).2) :=
  ⟨tick_plantAt h.plant applied, h.arm.tickCommand s.watchdog input,
    fun i => jointStep_speed (h.speed i) (full i)⟩

theorem runTicks_slow {obstacles : List (Obstacle K)} {s : DaemonState K} {q qDot : Fin DOF → K}
    (h : PlantSlow s q qDot) (inputs : List (TickInput K)) :
    ∃ q' qDot', PlantSlow (runTicks obstacles s inputs) q' qDot' := by
  refine List.foldlRecOn (motive := fun s => ∃ q qDot, PlantSlow s q qDot) inputs _ ⟨q, qDot, h⟩ ?_
  rintro s ⟨q, qDot, slow⟩ input _
  obtain ⟨torque, applied, full⟩ := slow.applied obstacles input
  exact ⟨_, _, slow.tick applied full⟩

/-- The plant stays finite and slow whatever bit patterns the command slot
holds: `input` is any tick after any run. -/
theorem arbitrary_commands_bounded (now : Int) (inputs : List (TickInput K)) (input : TickInput K)
    (i : Fin DOF) :
    (∃ t, (tick daemonObstacles (runTicks daemonObstacles (daemonStart now) inputs)
        input).2.safety.safeTorque i = .fin t ∧ |t| ≤ 87.0001) ∧
      (∃ x, (tick daemonObstacles (runTicks daemonObstacles (daemonStart now) inputs)
        input).1.state.q i = .fin x) ∧
      ∃ v, (tick daemonObstacles (runTicks daemonObstacles (daemonStart now) inputs)
          input).1.state.qDot i = .fin v ∧
        |v| ≤ 0.8527 ∧ |v| < (daemonLimits : KinematicLimits K).qDotMax i := by
  obtain ⟨q, qDot, slow⟩ : ∃ q qDot,
      PlantSlow (runTicks daemonObstacles (daemonStart now) inputs) q qDot :=
    runTicks_slow (daemonStart_slow now) inputs
  obtain ⟨torque, applied, full⟩ := slow.applied daemonObstacles input
  have next := slow.tick applied full
  refine ⟨⟨torque i, congrFun applied i, full i⟩, ⟨_, congrFun next.plant.position i⟩,
    _, congrFun next.plant.velocity i, next.speed i, (next.speed i).trans_lt ?_⟩
  simp only [daemonLimits]
  norm_num

/-- A frame of NaN torques, then one of infinite torques under a NaN margin. -/
theorem arbitrary_commands_bounded_nonfinite :
    (∃ t, (tick daemonObstacles (runTicks daemonObstacles (daemonStart 0)
        [⟨0, 1, 2, fun _ => .nan, 1, .fin 0.08, 2⟩])
        ⟨2000000, 2, 4, fun _ => .posInf, 1, .nan, 4⟩).2.safety.safeTorque 5 = .fin (t : ℝ) ∧
          |t| ≤ 87.0001) ∧
      (∃ x, (tick daemonObstacles (runTicks daemonObstacles (daemonStart 0)
        [⟨0, 1, 2, fun _ => .nan, 1, .fin 0.08, 2⟩])
        ⟨2000000, 2, 4, fun _ => .posInf, 1, .nan, 4⟩).1.state.q 5 = .fin (x : ℝ)) ∧
      ∃ v, (tick daemonObstacles (runTicks daemonObstacles (daemonStart 0)
          [⟨0, 1, 2, fun _ => .nan, 1, .fin 0.08, 2⟩])
          ⟨2000000, 2, 4, fun _ => .posInf, 1, .nan, 4⟩).1.state.qDot 5 = .fin (v : ℝ) ∧
        |v| ≤ 0.8527 ∧ |v| < (daemonLimits : KinematicLimits ℝ).qDotMax 5 :=
  arbitrary_commands_bounded 0 _ _ 5

end NeuroKinetic
