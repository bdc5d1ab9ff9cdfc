import NeuroKinetic.JointExits

open RidgeProjection

namespace NeuroKinetic

variable {K : Type} [Field K] [LinearOrder K] [IsStrictOrderedRing K]

section Mean

variable {count u total total' b ob : K}

/-- Averaging in a bound below the mean lowers it. -/
theorem ridgeMean_two_le_one (h : ob ≤ ridgeMean 1 u b) :
    ridgeMean 2 u (b + ob) ≤ ridgeMean 1 u b := by
  have one := ridgeMean_mul zero_le_one u b
  apply ridgeMean_le zero_le_two
  linarith

/-- When the mean of ceiling and obstacle bound exceeds the ceiling's own outcome. -/
theorem saturated_average_le_ceiling_iff {hi : K} (least : -87 ≤ hi) (hu : hi ≤ u)
    (high : ob ≤ 87) :
    stdClamp (ridgeMean 2 u (hi + ob)) (-87) 87 ≤ stdClamp (ridgeMean 1 u hi) (-87) 87 + 2e-3 ↔
      ¬hi + 1e-6 * u < 1.000001 * (ob - 0.004000002) := by
  have one := ridgeMean_mul zero_le_one u hi
  have two := ridgeMean_mul zero_le_two u (hi + ob)
  have above := bound_le_ridgeMean_one hu
  norm_num at one two
  generalize ridgeMean 1 u hi = m at one above ⊢
  generalize ridgeMean 2 u (hi + ob) = n at two ⊢
  by_cases lifts : hi + 1e-6 * u < 1.000001 * (ob - 0.004000002)
  · have inside : m + 2e-3 < 87 := by
      norm_num at lifts ⊢
      linarith
    have raised : m + 2e-3 < n := by
      norm_num at lifts ⊢
      linarith
    have kept : stdClamp m (-87) 87 = m :=
      stdClamp_of_mem (least.trans above) (by norm_num at inside; linarith)
    rw [kept]
    refine iff_of_false (not_le.mpr ?_) (not_not.mpr lifts)
    exact (lt_saturate_iff (by norm_num; linarith) inside).mpr raised
  · refine iff_of_true (stdClamp_le_add (by norm_num) (by norm_num) ?_) lifts
    norm_num at lifts ⊢
    linarith

end Mean

section Distance

/-- A wider margin keeps every obstacle near that was near. -/
theorem obstacleBarrier_widen {dist radius narrow wide : Ieee K} {c : K} (wider : narrow ≤ wide)
    (near : dist - (radius + narrow) < .fin c) : dist - (radius + wide) < .fin c := by
  cases radius with
  | fin r =>
    cases narrow with
    | fin x =>
      cases wide with
      | fin y =>
        cases dist with
        | fin d =>
          have order := Ieee.fin_le_fin.mp wider
          simp only [Ieee.fin_add_fin, Ieee.fin_sub_fin, Ieee.fin_lt_fin] at near ⊢
          linarith
        | negInf => rfl
        | _ => cases near
      | posInf =>
        cases dist with
        | fin d => rfl
        | negInf => rfl
        | _ => cases near
      | _ => cases wider
    | posInf =>
      cases wide with
      | posInf => exact near
      | _ => cases wider
    | negInf => cases dist <;> cases near
    | nan => cases wide <;> cases wider
  | posInf =>
    cases narrow with
    | nan => cases wide <;> cases wider
    | negInf => cases dist <;> cases near
    | _ =>
      cases wide with
      | fin y => cases dist <;> exact near
      | posInf => cases dist <;> exact near
      | _ => cases wider
  | negInf => cases narrow <;> cases dist <;> cases near
  | nan => cases narrow <;> cases dist <;> cases near

end Distance

section Lift

variable [SquareRoot K] {limits : KinematicLimits K} {q u : Fin DOF → K}
  {eePos : Fin 3 → Ieee K} {obstacles : List (Obstacle K)}

/-- Joint 5 is above its ceiling and above an obstacle bound that lies higher: the
mean of the two then lifts the torque off the ceiling. -/
def ObstacleLifts (limits : KinematicLimits K) (q : Fin DOF → K) (eePos : Fin 3 → Ieee K)
    (obstacles : List (Obstacle K)) (u : Fin DOF → K) : Prop :=
  UpperViolated limits q u 5 ∧ ObstacleActive limits q eePos obstacles u ∧
    maxAllowedTorque limits q 5 + 1e-6 * u 5 <
      1.000001 * (obstacleBound limits eePos obstacles - 0.004000002)

theorem obstacleBound_le (eePos : Fin 3 → Ieee K) (ht : limits.torqueMax 5 = 87)
    (hne : obstacles ≠ []) : obstacleBound limits eePos obstacles ≤ 87 := by
  rcases obstacleBound_cases eePos ht hne with bound | bound
  · rw [bound]
    norm_num
  · exact bound.le

/-- Joint 5 with obstacles against joint 5 without. -/
theorem filteredTorque_obstacle_le_iff (standard : StandardLimits limits) :
    filteredTorque limits q eePos obstacles u 5 ≤ filteredTorque limits q eePos [] u 5 + 2e-3 ↔
      ¬ObstacleLifts limits q eePos obstacles u := by
  have ht := standard.torque 5
  have order := standard.order q 5
  have none : ¬obstacleActs limits q eePos [] u 5 := fun h => h.2.1.1 rfl
  have slack : ∀ {v w : K}, v ≤ w → v ≤ w + 2e-3 :=
    fun h => h.trans (le_add_of_nonneg_right (by norm_num))
  by_cases violated : ObstacleViolated limits eePos obstacles u
  · by_cases all : ∀ i, LimitViolated limits q u i
    · -- the limit rows fill the active set, in both runs
      have cutOff : ¬obstacleActs limits q eePos obstacles u 5 := fun h => h.2.2 all
      rw [filteredTorque_limit order (all 5) cutOff, filteredTorque_limit order (all 5) none]
      exact iff_of_true (slack le_rfl) fun lifts => lifts.2.1.2 all
    · have acts : obstacleActs limits q eePos obstacles u 5 := ⟨rfl, violated, all⟩
      by_cases limit : LimitViolated limits q u 5
      · rw [filteredTorque_limit_obstacle order limit acts, filteredTorque_limit order limit none]
        by_cases upper : UpperViolated limits q u 5
        · rw [limitBound, if_pos upper, ht, saturated_average_le_ceiling_iff
            (neg_le_maxAllowedTorque limits q ht) upper.ceiling_le
            (obstacleBound_le eePos ht violated.1)]
          simp only [ObstacleLifts, upper, acts.2, true_and]
        · have lower := limit.resolve_left upper
          have mean := command_le_ridgeMean_one lower.le_floor
          rw [limitBound, if_neg upper, ht]
          refine iff_of_true (slack (stdClamp_mono (by norm_num) ?_)) fun lifts => upper lifts.1
          exact ridgeMean_two_le_one (violated.bound_le.trans mean)
      · have positive := obstacleBound_pos eePos ht violated.1
        have bound := violated.bound_le
        have mean := ridgeMean_one_le_command bound
        have forwards : -87 ≤ u 5 := by
          norm_num at positive
          linarith
        rw [filteredTorque_obstacle limit acts]
        refine iff_of_true (slack ?_) fun lifts => limit (Or.inl lifts.1)
        rcases filteredTorque_free limit none with value | value
        · rw [value]
          exact saturated_le ht mean forwards
        · rw [value, ht]
          exact stdClamp_mono (by norm_num) mean
  · rw [filteredTorque_quiet violated]
    exact iff_of_true (slack le_rfl) fun lifts => violated lifts.2.1.1

/-- The same limits with another obstacle margin. -/
def KinematicLimits.withMargin (limits : KinematicLimits K) (margin : Ieee K) :
    KinematicLimits K :=
  { limits with minObstacleDistance := margin }

omit [IsStrictOrderedRing K] [SquareRoot K] in
theorem StandardLimits.withMargin (standard : StandardLimits limits) (margin : Ieee K) :
    StandardLimits (limits.withMargin margin) := ⟨standard.torque, standard.width⟩

/-- A wider margin only ever lowers the obstacle bound. -/
theorem obstacleBound_withMargin_le {margin : Ieee K} (ht : limits.torqueMax 5 = 87)
    (wider : limits.minObstacleDistance ≤ margin) :
    obstacleBound (limits.withMargin margin) eePos obstacles ≤
      obstacleBound limits eePos obstacles := by
  cases obstacles with
  | nil => exact le_rfl
  | cons obs rest =>
    simp only [obstacleBound, obstacleTorqueBound]
    by_cases near : computeObstacleBarrier limits eePos obs < .fin 0.05
    · have near' : computeObstacleBarrier (limits.withMargin margin) eePos obs < .fin 0.05 :=
        obstacleBarrier_widen wider near
      rw [if_pos near, if_pos near']
    · rw [if_neg near]
      split
      next =>
        rw [ht]
        norm_num
      next => exact le_rfl

/-- A violated obstacle row stays violated, and its mean is lowered with its bound. -/
theorem filteredTorque_withMargin_le {margin : Ieee K} (standard : StandardLimits limits)
    (wider : limits.minObstacleDistance ≤ margin)
    (violated : ObstacleViolated limits eePos obstacles u) :
    filteredTorque (limits.withMargin margin) q eePos obstacles u 5 ≤
      filteredTorque limits q eePos obstacles u 5 := by
  have ht := standard.torque 5
  have order := standard.order q 5
  have order' := (standard.withMargin margin).order q 5
  have bound : obstacleBound (limits.withMargin margin) eePos obstacles ≤
      obstacleBound limits eePos obstacles := obstacleBound_withMargin_le ht wider
  have violated' : ObstacleViolated (limits.withMargin margin) eePos obstacles u :=
    ⟨violated.1, lt_of_le_of_lt (add_le_add_left bound _) violated.2⟩
  by_cases all : ∀ i, LimitViolated limits q u i
  · have cutOff : ¬obstacleActs limits q eePos obstacles u 5 := fun h => h.2.2 all
    have cutOff' : ¬obstacleActs (limits.withMargin margin) q eePos obstacles u 5 :=
      fun h => h.2.2 all
    rw [filteredTorque_limit order (all 5) cutOff, filteredTorque_limit order' (all 5) cutOff']
    exact le_rfl
  · have acts : obstacleActs limits q eePos obstacles u 5 := ⟨rfl, violated, all⟩
    have acts' : obstacleActs (limits.withMargin margin) q eePos obstacles u 5 :=
      ⟨rfl, violated', all⟩
    have range : -limits.torqueMax 5 ≤ limits.torqueMax 5 := by
      rw [ht]
      norm_num
    by_cases limit : LimitViolated limits q u 5
    · rw [filteredTorque_limit_obstacle order limit acts,
        filteredTorque_limit_obstacle order' limit acts']
      exact stdClamp_mono range (ridgeMean_mono zero_le_two (add_le_add_right bound _))
    · have limit' : ¬LimitViolated (limits.withMargin margin) q u 5 := limit
      rw [filteredTorque_obstacle limit acts, filteredTorque_obstacle limit' acts']
      exact stdClamp_mono range (ridgeMean_mono zero_le_one bound)

/-- Joint 5 under a wider margin against joint 5 under the old one. -/
theorem filteredTorque_withMargin_le_iff {margin : Ieee K} (standard : StandardLimits limits)
    (wider : limits.minObstacleDistance ≤ margin) :
    filteredTorque (limits.withMargin margin) q eePos obstacles u 5 ≤
        filteredTorque limits q eePos obstacles u 5 + 2e-3 ↔
      ObstacleViolated limits eePos obstacles u ∨
        ¬ObstacleLifts (limits.withMargin margin) q eePos obstacles u := by
  by_cases violated : ObstacleViolated limits eePos obstacles u
  · refine iff_of_true ?_ (Or.inl violated)
    exact (filteredTorque_withMargin_le standard wider violated).trans
      (le_add_of_nonneg_right (by norm_num))
  · have free : filteredTorque limits q eePos [] u =
        filteredTorque (limits.withMargin margin) q eePos [] u :=
      filteredTorque_congr rfl rfl rfl (iff_of_false (fun h => h.1 rfl) fun h => h.1 rfl)
        fun h => absurd rfl h.1
    rw [filteredTorque_quiet violated, free,
      filteredTorque_obstacle_le_iff (standard.withMargin margin), or_iff_right violated]

end Lift

/-- What tightening does to joint 5: an obstacle, or a wider margin, lifts its torque
exactly where it is averaged with a lower ceiling. -/
theorem obstacle_tightening_iff {K : Type} [Field K] [LinearOrder K] [IsStrictOrderedRing K]
    [SquareRoot K] [ExactSolver K] {limits : KinematicLimits K} (standard : StandardLimits limits)
    (q qDot u : Fin DOF → K) (eePos : Fin 3 → Ieee K) (obs : Obstacle K) {margin : Ieee K}
    (wider : limits.minObstacleDistance ≤ margin) :
    ∃ (free tight wide : SafetyOutput K) (f t w : Fin DOF → K),
      filterTorques limits ⟨fun i => .fin (q i), fun i => .fin (qDot i), eePos⟩
        (fun i => .fin (u i)) [] = .ok free ∧
      filterTorques limits ⟨fun i => .fin (q i), fun i => .fin (qDot i), eePos⟩
        (fun i => .fin (u i)) [obs] = .ok tight ∧
      filterTorques (limits.withMargin margin)
        ⟨fun i => .fin (q i), fun i => .fin (qDot i), eePos⟩
        (fun i => .fin (u i)) [obs] = .ok wide ∧
      free.safeTorque = (fun i => .fin (f i)) ∧ tight.safeTorque = (fun i => .fin (t i)) ∧
      wide.safeTorque = (fun i => .fin (w i)) ∧
      (t 5 ≤ f 5 + 2e-3 ↔ ¬ObstacleLifts limits q eePos [obs] u) ∧
      (w 5 ≤ t 5 + 2e-3 ↔ ObstacleViolated limits eePos [obs] u ∨
        ¬ObstacleLifts (limits.withMargin margin) q eePos [obs] u) := by
  have standard' := standard.withMargin margin
  exact ⟨_, _, _, filteredTorque limits q eePos [] u, filteredTorque limits q eePos [obs] u,
    filteredTorque (limits.withMargin margin) q eePos [obs] u,
    filterTorques_flagged (standard.order q) qDot u eePos [],
    filterTorques_flagged (standard.order q) qDot u eePos [obs],
    filterTorques_flagged (standard'.order q) qDot u eePos [obs], rfl, rfl, rfl,
    filteredTorque_obstacle_le_iff standard, filteredTorque_withMargin_le_iff standard wider⟩

section Clash

theorem clash_lifts : ObstacleLifts daemonLimits clashPosition daemonState.endEffectorPos
    daemonObstacles clashCommand := by
  refine ⟨clash_upperViolated, ⟨clash_obstacleViolated, clash_not_all⟩, ?_⟩
  rw [clash_ceiling, clash_obstacleBound, clash_command]
  norm_num

theorem obstacle_tightening_iff_clash :
    ∃ (free tight wide : SafetyOutput ℝ) (f t w : Fin DOF → ℝ),
      filterTorques daemonLimits
        ⟨fun i => .fin (clashPosition i), fun _ => .fin 0, daemonState.endEffectorPos⟩
        (fun i => .fin (clashCommand i)) [] = .ok free ∧
      filterTorques daemonLimits
        ⟨fun i => .fin (clashPosition i), fun _ => .fin 0, daemonState.endEffectorPos⟩
        (fun i => .fin (clashCommand i)) [⟨![.fin 0.50, .fin 0.10, .fin 0.30], .fin 0.05⟩] =
          .ok tight ∧
      filterTorques (daemonLimits.withMargin (.fin 0.30))
        ⟨fun i => .fin (clashPosition i), fun _ => .fin 0, daemonState.endEffectorPos⟩
        (fun i => .fin (clashCommand i)) [⟨![.fin 0.50, .fin 0.10, .fin 0.30], .fin 0.05⟩] =
          .ok wide ∧
      free.safeTorque = (fun i => .fin (f i)) ∧ tight.safeTorque = (fun i => .fin (t i)) ∧
      wide.safeTorque = (fun i => .fin (w i)) ∧
      (t 5 ≤ f 5 + 2e-3 ↔ ¬ObstacleLifts daemonLimits clashPosition daemonState.endEffectorPos
        [⟨![.fin 0.50, .fin 0.10, .fin 0.30], .fin 0.05⟩] clashCommand) ∧
      (w 5 ≤ t 5 + 2e-3 ↔ ObstacleViolated daemonLimits daemonState.endEffectorPos
          [⟨![.fin 0.50, .fin 0.10, .fin 0.30], .fin 0.05⟩] clashCommand ∨
        ¬ObstacleLifts (daemonLimits.withMargin (.fin 0.30)) clashPosition daemonState.endEffectorPos
          [⟨![.fin 0.50, .fin 0.10, .fin 0.30], .fin 0.05⟩] clashCommand) :=
  obstacle_tightening_iff DaemonArm.start.standard clashPosition (fun _ => 0) clashCommand
    daemonState.endEffectorPos _ (Ieee.fin_le_fin.mpr (by norm_num))

/-- Past its limit joint 5 is pushed harder with the daemon's obstacle than without. -/
theorem obstacle_lifts_clash :
    (∀ i, |clashCommand i| ≤ 1000) ∧
    ∃ (free tight : SafetyOutput ℝ) (f t : Fin DOF → ℝ),
      filterTorques daemonLimits
        ⟨fun i => .fin (clashPosition i), fun _ => .fin 0, daemonState.endEffectorPos⟩
        (fun i => .fin (clashCommand i)) [] = .ok free ∧
      filterTorques daemonLimits
        ⟨fun i => .fin (clashPosition i), fun _ => .fin 0, daemonState.endEffectorPos⟩
        (fun i => .fin (clashCommand i)) daemonObstacles = .ok tight ∧
      free.safeTorque = (fun i => .fin (f i)) ∧ tight.safeTorque = (fun i => .fin (t i)) ∧
      ¬t 5 ≤ f 5 + 2e-3 := by
  have standard := (DaemonArm.start (K := ℝ)).standard
  have order := standard.order clashPosition
  refine ⟨clash_command_le, _, _, _, _,
    filterTorques_flagged order (fun _ => 0) clashCommand daemonState.endEffectorPos [],
    filterTorques_flagged order (fun _ => 0) clashCommand daemonState.endEffectorPos
      daemonObstacles, rfl, rfl, fun kept => ?_⟩
  exact (filteredTorque_obstacle_le_iff standard).mp kept clash_lifts

end Clash

end NeuroKinetic
