import NeuroKinetic.ObstacleTightening

open RidgeProjection

namespace NeuroKinetic

variable {K : Type} [Field K] [LinearOrder K] [IsStrictOrderedRing K]

/-- How far an obstacle bound, averaged in, moves the outcome of a limit row. -/
theorem saturated_gap_le_iff {m n ob : K} (mean : n * 2.000001 = m * 1.000001 + ob)
    (low : -87 ≤ m) (high : m ≤ 88) (bound : ob = 0.05 ∨ ob = 87) :
    |stdClamp m (-87) 87 - stdClamp n (-87) 87| ≤ 2e-4 ↔ ¬0.0004000002 < |ob - min 87 m| := by
  by_cases served : m ≤ 87
  · have inside : -87 ≤ n ∧ n ≤ 87 := by
      rcases bound with rfl | rfl <;> norm_num at mean <;> constructor <;> linarith
    rw [stdClamp_of_mem low served, stdClamp_of_mem inside.1 inside.2, min_eq_right served, not_lt,
      abs_le, abs_le]
    norm_num at mean ⊢
    constructor <;> rintro ⟨_, _⟩ <;> constructor <;> linarith
  · have top : stdClamp m (-87) 87 = 87 := by
      rw [stdClamp_eq_max_min (by norm_num), min_eq_left (not_le.mp served).le,
        max_eq_right (by norm_num)]
    rw [top, min_eq_left (not_le.mp served).le]
    rcases bound with rfl | rfl
    · have inside : -87 ≤ n ∧ n ≤ 45 := by
        norm_num at mean
        constructor <;> linarith
      rw [stdClamp_of_mem inside.1 (inside.2.trans (by norm_num))]
      refine iff_of_false (not_le.mpr (lt_abs.mpr (Or.inl ?_))) (not_not.mpr (lt_abs.mpr (Or.inr ?_)))
      · norm_num
        linarith
      · norm_num
    · have above : 87 ≤ n := by
        norm_num at mean
        linarith
      have same : stdClamp n (-87) 87 = 87 := by
        rw [stdClamp_eq_max_min (by norm_num), min_eq_left above, max_eq_right (by norm_num)]
      rw [same, sub_self, abs_zero]
      exact iff_of_true (by norm_num) (by norm_num)

section Joint

variable [SquareRoot K] {limits : KinematicLimits K} {q u v : Fin DOF → K} {i : Fin DOF}
  {eePos : Fin 3 → Ieee K} {obstacles : List (Obstacle K)}

/-- A joint without a violated row stays within the tolerance of its command. -/
theorem filteredTorque_free_near (standard : StandardLimits limits)
    (free : ¬LimitViolated limits q u i) (alone : ¬obstacleActs limits q eePos obstacles u i) :
    |filteredTorque limits q eePos obstacles u i - u i| ≤ 1e-4 := by
  have ht := standard.torque i
  rcases filteredTorque_free free alone with value | value
  · rw [value, sub_self, abs_zero]
    norm_num
  · have quiet := not_or.mp free
    have ceiling := (not_lt.mp quiet.1).trans (add_le_add_left (maxAllowedTorque_le limits q ht) _)
    have floor := (sub_le_sub_right (neg_le_minAllowedTorque limits q ht) _).trans
      (not_lt.mp quiet.2)
    rw [value, ht, abs_sub_comm]
    exact abs_sub_stdClamp_le (by norm_num) (by norm_num) floor ceiling

/-- The other joints' commands decide whether seven limit rows cut the obstacle row
off, and on joint 5 that row would have moved the torque. -/
def CutOffDiffers (limits : KinematicLimits K) (q : Fin DOF → K) (eePos : Fin 3 → Ieee K)
    (obstacles : List (Obstacle K)) (u v : Fin DOF → K) : Prop :=
  LimitViolated limits q u 5 ∧ ObstacleViolated limits eePos obstacles u ∧
    ¬((∀ j, LimitViolated limits q u j) ↔ ∀ j, LimitViolated limits q v j) ∧
    0.0004000002 < |obstacleBound limits eePos obstacles -
      min 87 (ridgeMean 1 (u 5) (limitBound limits q u 5))|

omit [IsStrictOrderedRing K] [SquareRoot K] in
theorem limitViolated_congr (agree : u i = v i) :
    LimitViolated limits q u i ↔ LimitViolated limits q v i := by
  simp only [LimitViolated, UpperViolated, LowerViolated, agree]

omit [IsStrictOrderedRing K] [SquareRoot K] in
theorem limitBound_congr (agree : u i = v i) : limitBound limits q u i = limitBound limits q v i := by
  have upper : UpperViolated limits q u i ↔ UpperViolated limits q v i := by
    simp only [UpperViolated, agree]
  simp only [limitBound, upper]

omit [IsStrictOrderedRing K] in
theorem obstacleViolated_congr (agree : u 5 = v 5) :
    ObstacleViolated limits eePos obstacles u ↔ ObstacleViolated limits eePos obstacles v := by
  simp only [ObstacleViolated, agree]

/-- The mean with the limit row alone, wherever the obstacle row is violated too. -/
theorem limit_mean_range (standard : StandardLimits limits) (hu : |u 5| ≤ 1000)
    (limit : LimitViolated limits q u 5) (violated : ObstacleViolated limits eePos obstacles u) :
    -87 ≤ ridgeMean 1 (u 5) (limitBound limits q u 5) ∧
      ridgeMean 1 (u 5) (limitBound limits q u 5) ≤ 88 := by
  have ht := standard.torque 5
  by_cases upper : UpperViolated limits q u 5
  · have least := neg_le_maxAllowedTorque limits q ht
    have most := maxAllowedTorque_le limits q ht
    have mean := ridgeMean_one_le (abs_le.mp hu).2 least
    rw [limitBound, if_pos upper]
    refine ⟨least.trans (bound_le_ridgeMean_one upper.ceiling_le), mean.trans ?_⟩
    norm_num
    linarith
  · have lower := (limit.resolve_left upper).le_floor
    have most := minAllowedTorque_le limits q ht
    have positive := obstacleBound_pos eePos ht violated.1
    have bound := violated.bound_le
    rw [limitBound, if_neg upper]
    refine ⟨le_trans ?_ (command_le_ridgeMean_one lower),
      (ridgeMean_one_le_bound lower).trans (most.trans (by norm_num))⟩
    norm_num at positive
    linarith

/-- One run has the obstacle row on joint 5, the other has it cut off. -/
theorem filteredTorque_cutOff_iff (standard : StandardLimits limits) (hu : |u 5| ≤ 1000)
    (agree : u 5 = v 5) (acts : obstacleActs limits q eePos obstacles u 5)
    (all : ∀ j, LimitViolated limits q v j) :
    |filteredTorque limits q eePos obstacles u 5 - filteredTorque limits q eePos obstacles v 5| ≤
        2e-4 ↔
      ¬0.0004000002 < |obstacleBound limits eePos obstacles -
        min 87 (ridgeMean 1 (u 5) (limitBound limits q u 5))| := by
  have ht := standard.torque 5
  have order := standard.order q 5
  have violated := acts.2.1
  have limit := (limitViolated_congr agree).mpr (all 5)
  have cutOff : ¬obstacleActs limits q eePos obstacles v 5 := fun h => h.2.2 all
  have range := limit_mean_range standard hu limit violated
  rw [filteredTorque_limit_obstacle order limit acts, filteredTorque_limit order (all 5) cutOff,
    ← agree, ← limitBound_congr agree, ht, abs_sub_comm]
  have one := ridgeMean_mul zero_le_one (u 5) (limitBound limits q u 5)
  have two := ridgeMean_mul zero_le_two (u 5)
    (limitBound limits q u 5 + obstacleBound limits eePos obstacles)
  apply saturated_gap_le_iff _ range.1 range.2 (obstacleBound_cases eePos ht violated.1)
  norm_num at one two ⊢
  linarith

omit [IsStrictOrderedRing K] in
theorem obstacleActs_iff_not_all (violated : ObstacleViolated limits eePos obstacles u) :
    obstacleActs limits q eePos obstacles u 5 ↔ ¬∀ j, LimitViolated limits q u j :=
  ⟨fun acts => acts.2.2, fun some => ⟨rfl, violated, some⟩⟩

omit [IsStrictOrderedRing K] in
theorem CutOffDiffers.symm (agree : u 5 = v 5) (h : CutOffDiffers limits q eePos obstacles u v) :
    CutOffDiffers limits q eePos obstacles v u := by
  obtain ⟨limit, violated, differ, far⟩ := h
  refine ⟨(limitViolated_congr agree).mp limit, (obstacleViolated_congr agree).mp violated,
    fun all => differ all.symm, ?_⟩
  rwa [← agree, ← limitBound_congr agree]

/-- Under two commands that leave a joint the same rows, it gets nearly the same torque. -/
theorem filteredTorque_close (standard : StandardLimits limits) (agree : u i = v i)
    (same : obstacleActs limits q eePos obstacles u i ↔ obstacleActs limits q eePos obstacles v i) :
    |filteredTorque limits q eePos obstacles u i - filteredTorque limits q eePos obstacles v i| ≤
      2e-4 := by
  have order := standard.order q i
  have limit : LimitViolated limits q u i ↔ LimitViolated limits q v i :=
    limitViolated_congr agree
  have close_of_eq : filteredTorque limits q eePos obstacles u i =
      filteredTorque limits q eePos obstacles v i →
      |filteredTorque limits q eePos obstacles u i - filteredTorque limits q eePos obstacles v i| ≤
        2e-4 := by
    intro equal
    rw [equal, sub_self, abs_zero]
    norm_num
  by_cases violated : LimitViolated limits q u i
  · have violated' := limit.mp violated
    apply close_of_eq
    by_cases acts : obstacleActs limits q eePos obstacles u i
    · rw [filteredTorque_limit_obstacle order violated acts,
        filteredTorque_limit_obstacle order violated' (same.mp acts), agree,
        limitBound_congr agree]
    · rw [filteredTorque_limit order violated acts,
        filteredTorque_limit order violated' fun h => acts (same.mpr h), agree,
        limitBound_congr agree]
  · have free : ¬LimitViolated limits q v i := fun h => violated (limit.mpr h)
    by_cases acts : obstacleActs limits q eePos obstacles u i
    · apply close_of_eq
      rw [filteredTorque_obstacle violated acts, filteredTorque_obstacle free (same.mp acts), agree]
    · have near := filteredTorque_free_near standard violated acts
      have near' := filteredTorque_free_near standard free fun h => acts (same.mpr h)
      rw [← agree] at near'
      rw [abs_le] at near near' ⊢
      norm_num at near near' ⊢
      constructor <;> linarith

/-- An obstacle row that acts under one command only was cut off under the other. -/
theorem filteredTorque_crowded_iff (standard : StandardLimits limits) (hu : |u i| ≤ 1000)
    (agree : u i = v i) (acts : obstacleActs limits q eePos obstacles u i)
    (dropped : ¬obstacleActs limits q eePos obstacles v i) :
    |filteredTorque limits q eePos obstacles u i - filteredTorque limits q eePos obstacles v i| ≤
        2e-4 ↔
      ¬(i = 5 ∧ CutOffDiffers limits q eePos obstacles u v) := by
  obtain ⟨rfl, violated, some⟩ := id acts
  have violated' := (obstacleViolated_congr agree).mp violated
  have all : ∀ j, LimitViolated limits q v j := by
    by_contra some'
    exact dropped ((obstacleActs_iff_not_all violated').mpr some')
  have limit : LimitViolated limits q u 5 := (limitViolated_congr agree).mpr (all 5)
  have differ : ¬((∀ j, LimitViolated limits q u j) ↔ ∀ j, LimitViolated limits q v j) :=
    fun h => some (h.mpr all)
  rw [filteredTorque_cutOff_iff standard hu agree acts all]
  simp only [CutOffDiffers, limit, violated, differ, not_false_eq_true, true_and]

theorem filteredTorque_decoupled_iff (standard : StandardLimits limits) (hu : ∀ j, |u j| ≤ 1000)
    (agree : u i = v i) :
    |filteredTorque limits q eePos obstacles u i - filteredTorque limits q eePos obstacles v i| ≤
        2e-4 ↔
      ¬(i = 5 ∧ CutOffDiffers limits q eePos obstacles u v) := by
  by_cases same : obstacleActs limits q eePos obstacles u i ↔ obstacleActs limits q eePos obstacles v i
  · refine iff_of_true (filteredTorque_close standard agree same) ?_
    rintro ⟨rfl, _, violated, differ, _⟩
    have violated' := (obstacleViolated_congr agree).mp violated
    rw [obstacleActs_iff_not_all violated, obstacleActs_iff_not_all violated'] at same
    exact differ (not_iff_not.mp same)
  · by_cases acts : obstacleActs limits q eePos obstacles u i
    · have dropped : ¬obstacleActs limits q eePos obstacles v i :=
        fun acts' => same (iff_of_true acts acts')
      exact filteredTorque_crowded_iff standard (hu i) agree acts dropped
    · have acts' : obstacleActs limits q eePos obstacles v i := by
        by_contra dropped'
        exact same (iff_of_false acts dropped')
      have hv : |v i| ≤ 1000 := by
        rw [← agree]
        exact hu i
      rw [abs_sub_comm, filteredTorque_crowded_iff standard hv agree.symm acts' acts]
      refine not_congr (and_congr_right ?_)
      rintro rfl
      exact ⟨CutOffDiffers.symm agree.symm, CutOffDiffers.symm agree⟩

end Joint

/-- Which joints are decoupled from the commands of the others: all but a joint 5
whose obstacle row one of the two commands cuts off. -/
theorem joints_decoupled_iff {K : Type} [Field K] [LinearOrder K] [IsStrictOrderedRing K]
    [SquareRoot K] [ExactSolver K] {limits : KinematicLimits K} (standard : StandardLimits limits)
    (q qDot u v : Fin DOF → K) (hu : ∀ i, |u i| ≤ 1000) (eePos : Fin 3 → Ieee K)
    (obstacles : List (Obstacle K)) :
    ∃ (first second : SafetyOutput K) (a b : Fin DOF → K),
      filterTorques limits ⟨fun i => .fin (q i), fun i => .fin (qDot i), eePos⟩
        (fun i => .fin (u i)) obstacles = .ok first ∧
      filterTorques limits ⟨fun i => .fin (q i), fun i => .fin (qDot i), eePos⟩
        (fun i => .fin (v i)) obstacles = .ok second ∧
      first.safeTorque = (fun i => .fin (a i)) ∧ second.safeTorque = (fun i => .fin (b i)) ∧
      ∀ i, u i = v i →
        (|a i - b i| ≤ 2e-4 ↔ ¬(i = 5 ∧ CutOffDiffers limits q eePos obstacles u v)) :=
  ⟨_, _, filteredTorque limits q eePos obstacles u, filteredTorque limits q eePos obstacles v,
    filterTorques_flagged (standard.order q) qDot u eePos obstacles,
    filterTorques_flagged (standard.order q) qDot v eePos obstacles, rfl, rfl,
    fun _ agree => filteredTorque_decoupled_iff standard hu agree⟩

section Crowd

/-- The clashing command with 100 Nm on each of the other joints. -/
noncomputable def crowdCommand : Fin DOF → ℝ := Function.update (fun _ => 100) 5 10

theorem crowd_agree : clashCommand 5 = crowdCommand 5 := by
  rw [clash_command, crowdCommand, Function.update_self]

theorem crowd_all (i : Fin DOF) : LimitViolated daemonLimits clashPosition crowdCommand i := by
  by_cases hi : i = 5
  · subst hi
    exact (limitViolated_congr crowd_agree).mp (Or.inl clash_upperViolated)
  · have command : crowdCommand i = 100 := Function.update_of_ne hi _ _
    have position : clashPosition i = 0 := Pi.single_eq_of_ne hi _
    have ceiling : maxAllowedTorque daemonLimits clashPosition i = 87 := by
      refine maxAllowedTorque_far rfl ?_
      rw [position]
      simp only [daemonLimits]
      norm_num
    left
    rw [UpperViolated, ceiling, command]
    norm_num

theorem crowd_differs : CutOffDiffers daemonLimits clashPosition daemonState.endEffectorPos
    daemonObstacles clashCommand crowdCommand := by
  refine ⟨Or.inl clash_upperViolated, clash_obstacleViolated,
    fun same => clash_not_all (same.mpr crowd_all), ?_⟩
  rw [limitBound, if_pos clash_upperViolated, clash_ceiling, clash_obstacleBound, clash_command,
    ridgeMean, min_eq_right (by norm_num)]
  exact lt_abs.mpr (Or.inl (by norm_num))

theorem joints_decoupled_iff_crowd :
    ∃ (first second : SafetyOutput ℝ) (a b : Fin DOF → ℝ),
      filterTorques daemonLimits
        ⟨fun i => .fin (clashPosition i), fun _ => .fin 0, daemonState.endEffectorPos⟩
        (fun i => .fin (clashCommand i)) daemonObstacles = .ok first ∧
      filterTorques daemonLimits
        ⟨fun i => .fin (clashPosition i), fun _ => .fin 0, daemonState.endEffectorPos⟩
        (fun i => .fin (crowdCommand i)) daemonObstacles = .ok second ∧
      first.safeTorque = (fun i => .fin (a i)) ∧ second.safeTorque = (fun i => .fin (b i)) ∧
      ∀ i, clashCommand i = crowdCommand i →
        (|a i - b i| ≤ 2e-4 ↔ ¬(i = 5 ∧ CutOffDiffers daemonLimits clashPosition
          daemonState.endEffectorPos daemonObstacles clashCommand crowdCommand)) :=
  joints_decoupled_iff DaemonArm.start.standard clashPosition (fun _ => 0) clashCommand crowdCommand
    clash_command_le daemonState.endEffectorPos daemonObstacles

/-- The commands of the other joints switch the obstacle row of joint 5 off. -/
theorem obstacle_row_crowded_out :
    clashCommand 5 = crowdCommand 5 ∧
    (∀ i, |clashCommand i| ≤ 1000 ∧ |crowdCommand i| ≤ 1000) ∧
    ∃ (first second : SafetyOutput ℝ) (a b : Fin DOF → ℝ),
      filterTorques daemonLimits
        ⟨fun i => .fin (clashPosition i), fun _ => .fin 0, daemonState.endEffectorPos⟩
        (fun i => .fin (clashCommand i)) daemonObstacles = .ok first ∧
      filterTorques daemonLimits
        ⟨fun i => .fin (clashPosition i), fun _ => .fin 0, daemonState.endEffectorPos⟩
        (fun i => .fin (crowdCommand i)) daemonObstacles = .ok second ∧
      first.safeTorque = (fun i => .fin (a i)) ∧ second.safeTorque = (fun i => .fin (b i)) ∧
      ¬|a 5 - b 5| ≤ 2e-4 := by
  have standard := (DaemonArm.start (K := ℝ)).standard
  have order := standard.order clashPosition
  refine ⟨crowd_agree, fun i => ⟨clash_command_le i, ?_⟩, _, _, _, _,
    filterTorques_flagged order (fun _ => 0) clashCommand daemonState.endEffectorPos daemonObstacles,
    filterTorques_flagged order (fun _ => 0) crowdCommand daemonState.endEffectorPos daemonObstacles,
    rfl, rfl, fun close => ?_⟩
  · by_cases hi : i = 5
    · subst hi
      rw [← crowd_agree]
      exact clash_command_le 5
    · have command : crowdCommand i = 100 := Function.update_of_ne hi _ _
      rw [command]
      norm_num
  · exact (filteredTorque_decoupled_iff standard clash_command_le crowd_agree).mp close
      ⟨rfl, crowd_differs⟩

end Crowd

end NeuroKinetic
