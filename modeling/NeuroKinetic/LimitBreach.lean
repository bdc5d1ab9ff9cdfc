import NeuroKinetic.JointExcursion

open RidgeProjection

namespace NeuroKinetic

/-- Full torque towards the upper limits, from a client that never beats. -/
def hazardInput {K : Type} [Field K] : TickInput K :=
  ⟨0, 0, 2, fun _ => .fin 87, 0, .fin 0.08, 2⟩

section Step

variable {K : Type} [Field K]

theorem hazard_watchdog {w : Watchdog} (quiet : w.lastPythonHeartbeat = 0) :
    w.evaluate 0 0 = w := by
  simp [Watchdog.evaluate, quiet]

variable [LinearOrder K]

theorem hazard_command (limits : KinematicLimits K) {w : Watchdog}
    (quiet : w.lastPythonHeartbeat = 0) (healthy : w.tripped = false) :
    (tickCommand limits w hazardInput).nominalTorque = fun _ => .fin 87 := by
  apply tickCommand_kept
  · simp [CommandRead.Accepted, hazardInput]
  · change (w.evaluate 0 0).tripped = false
    rw [hazard_watchdog quiet, healthy]
  · simp [hazardInput]

variable [IsStrictOrderedRing K] [SquareRoot K]

theorem hazard_leak {limits : KinematicLimits K} (standard : StandardLimits limits)
    {q : Fin DOF → K} {i : Fin DOF} (hi : i ≠ 5) (inside : q i ≤ limits.qMax i)
    (eePos : Fin 3 → Ieee K) (obstacles : List (Obstacle K)) :
    0.00008 ≤ filteredTorque limits q eePos obstacles (fun _ => 87) i := by
  have ht := standard.torque i
  have outcome := filteredTorque_outcome (u := fun _ => 87) (standard.order q i) eePos obstacles
  generalize filteredTorque limits q eePos obstacles (fun _ => 87) i = t at outcome
  cases outcome with
  | accepted _ _ _ _ value =>
    rcases value with value | value
    · rw [value]
      norm_num
    · rw [value]
      exact le_saturated ht (by norm_num) (by norm_num)
  | ceiling _ _ =>
    have ceiling := maxAllowedTorque_nonneg ht inside
    have mean : 0.00008 ≤ ridgeMean 1 87 (maxAllowedTorque limits q i) := by
      apply le_ridgeMean zero_le_one
      norm_num
      linarith
    exact le_saturated ht mean (by norm_num)
  | floor lower _ =>
    have beyond := lt_of_lt_of_le lower (sub_le_self _ (by norm_num))
    exact absurd (minAllowedTorque_le limits q ht) (not_le.mpr beyond)
  | obstacle _ _ acts => exact absurd acts.1 hi
  | ceilingObstacle _ acts => exact absurd acts.1 hi
  | floorObstacle _ acts => exact absurd acts.1 hi

/-- A run under the hazard command: the coasting point of joint 0 has moved. -/
structure Drifting (s : DaemonState K) (q qDot : Fin DOF → K) (n : Nat) : Prop where
  safe : PlantSafe s q qDot
  quiet : s.watchdog.lastPythonHeartbeat = 0
  healthy : s.watchdog.tripped = false
  drift : n * 0.000000001 ≤ q 0 + 0.098 * qDot 0

variable [ExactSolver K]

theorem Drifting.tick {s : DaemonState K} {q qDot : Fin DOF → K} {n : Nat}
    (h : Drifting s q qDot n) (inside : q 0 ≤ 2.89) :
    ∃ q' qDot', Drifting (tick daemonObstacles s hazardInput).1 q' qDot' (n + 1) := by
  have command := hazard_command s.limits h.quiet h.healthy
  have arm := h.safe.arm.tickCommand s.watchdog hazardInput
  have restricts := obstacleRestricts_of_hardware (arm.torqueMax 5) s.state.endEffectorPos
    daemonObstacles (u := fun _ => 87) (by norm_num)
  have safe := h.safe.tick hazardInput command (by norm_num) restricts
  have leak := hazard_leak arm.standard (i := 0) (by decide) (by rwa [arm.qMax])
    s.state.endEffectorPos daemonObstacles
  have same : (NeuroKinetic.tick daemonObstacles s hazardInput).1.watchdog = s.watchdog :=
    hazard_watchdog h.quiet
  refine ⟨_, _, safe, by rw [same]; exact h.quiet, by rw [same]; exact h.healthy, ?_⟩
  have before := h.drift
  simp only [jointStep]
  push_cast
  norm_num at before leak ⊢
  linarith

theorem runTicks_drifting (now : Int) (inside : ∀ n, ∀ i,
    (runTicks daemonObstacles (daemonStart now) (List.replicate n hazardInput)).state.q i ≤
      Ieee.fin (2.89 : K)) (n : Nat) :
    ∃ q qDot, Drifting (runTicks daemonObstacles (daemonStart now : DaemonState K)
      (List.replicate n hazardInput)) q qDot n := by
  induction n with
  | zero =>
    refine ⟨_, _, daemonStart_safe now, rfl, rfl, ?_⟩
    norm_num
  | succ n ih =>
    obtain ⟨q, qDot, drifting⟩ := ih
    have position := inside n 0
    rw [drifting.safe.plant.position, Ieee.fin_le_fin] at position
    rw [List.replicate_succ', runTicks, List.foldl_append]
    exact drifting.tick position

end Step

/-- The joint limits themselves are not kept: some run ends beyond one. -/
theorem joint_limit_breach :
    ¬∀ inputs : List (TickInput ℝ), (∀ input ∈ inputs, CommandWithin 87 input) → ∀ i,
      .fin ((daemonLimits : KinematicLimits ℝ).qMin i) ≤
          (runTicks daemonObstacles (daemonStart 0) inputs).state.q i ∧
        (runTicks daemonObstacles (daemonStart 0) inputs).state.q i ≤
          .fin ((daemonLimits : KinematicLimits ℝ).qMax i) := by
  intro invariant
  have inside : ∀ n, ∀ i,
      (runTicks daemonObstacles (daemonStart 0) (List.replicate n hazardInput)).state.q i ≤
        Ieee.fin (2.89 : ℝ) := by
    intro n i
    have within : ∀ input ∈ List.replicate n (hazardInput : TickInput ℝ), CommandWithin 87 input := by
      intro input member _
      obtain rfl := List.eq_of_mem_replicate member
      exact ⟨87, rfl, by norm_num⟩
    exact (invariant _ within i).2
  obtain ⟨q, qDot, drifting⟩ := runTicks_drifting 0 inside 3000000000
  have position := inside 3000000000 0
  rw [drifting.safe.plant.position, Ieee.fin_le_fin] at position
  have speed := (drifting.safe.upper 0).speed
  have drift := drifting.drift
  norm_num at position speed drift
  linarith

end NeuroKinetic
