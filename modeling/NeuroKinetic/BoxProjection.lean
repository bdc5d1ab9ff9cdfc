import NeuroKinetic.LargeCommands

open RidgeProjection

namespace NeuroKinetic

variable {K : Type} [Field K] [LinearOrder K] [IsStrictOrderedRing K]

/-- The ridge moves the mean off its bound by a millionth of the command's distance. -/
theorem abs_ridgeMean_one_sub_le (u b : K) : |ridgeMean 1 u b - b| ≤ 1e-6 * |u - b| := by
  have weight : (0 : K) < 1 + 1e-6 := by norm_num
  have share : ridgeMean 1 u b - b = 1e-6 * (u - b) / (1 + 1e-6) := by
    rw [ridgeMean, div_sub' weight.ne']
    congr 1
    ring
  rw [share, abs_div, abs_mul, abs_of_pos weight, abs_of_pos (by norm_num)]
  exact div_le_self (mul_nonneg (by norm_num) (abs_nonneg _)) (by norm_num)

section Box

variable [SquareRoot K]

/-- The highest torque that every row on the joint allows. -/
def boxUpper (limits : KinematicLimits K) (q : Fin DOF → K) (eePos : Fin 3 → Ieee K) :
    List (Obstacle K) → Fin DOF → K
  | [], i => maxAllowedTorque limits q i
  | obs :: _, i =>
    if i = 5 then min (maxAllowedTorque limits q i) (obstacleTorqueBound limits eePos obs)
    else maxAllowedTorque limits q i

/-- What the rows are for: clamp each joint's command to the torques its rows allow. -/
def boxTorque (limits : KinematicLimits K) (q : Fin DOF → K) (eePos : Fin 3 → Ieee K)
    (obstacles : List (Obstacle K)) (u : Fin DOF → K) (i : Fin DOF) : K :=
  stdClamp (u i) (minAllowedTorque limits q i) (boxUpper limits q eePos obstacles i)

variable {limits : KinematicLimits K} {q u : Fin DOF → K} {eePos : Fin 3 → Ieee K}
  {obstacles : List (Obstacle K)} {i : Fin DOF} {c : K}

omit [IsStrictOrderedRing K] in
theorem le_boxUpper_iff : c ≤ boxUpper limits q eePos obstacles i ↔
    c ≤ maxAllowedTorque limits q i ∧
      (i = 5 → obstacles ≠ [] → c ≤ obstacleBound limits eePos obstacles) := by
  cases obstacles with
  | nil => simp [boxUpper]
  | cons obs rest =>
    by_cases hi : i = 5
    · simp [boxUpper, obstacleBound, hi]
    · simp [boxUpper, hi]

omit [IsStrictOrderedRing K] in
theorem boxUpper_le_max : boxUpper limits q eePos obstacles i ≤ maxAllowedTorque limits q i :=
  (le_boxUpper_iff.mp le_rfl).1

theorem lt_boxUpper_add_of_accepted (upper : ¬UpperViolated limits q u i)
    (obstacle : ¬(i = 5 ∧ ObstacleViolated limits eePos obstacles u)) :
    u i ≤ boxUpper limits q eePos obstacles i + 1e-4 := by
  rw [← sub_le_iff_le_add, le_boxUpper_iff]
  refine ⟨sub_le_iff_le_add.mpr (not_lt.mp upper), ?_⟩
  rintro rfl hne
  exact sub_le_iff_le_add.mpr (not_lt.mp fun h => obstacle ⟨rfl, hne, h⟩)

/-- The rows are jointly satisfiable exactly where every joint's box is not empty. -/
theorem RowsWithin.floor_le_boxUpper {w : Fin DOF → K}
    (rows : RowsWithin limits q eePos obstacles 0 w) (i : Fin DOF) :
    minAllowedTorque limits q i ≤ boxUpper limits q eePos obstacles i := by
  have within := (rowsWithin_iff le_rfl).mp rows i
  have floor := within.floor
  rw [sub_zero] at floor
  rw [le_boxUpper_iff]
  refine ⟨floor.trans ?_, fun hi hne => floor.trans ?_⟩
  · simpa using within.ceiling
  · simpa using within.obstacle hi hne

omit [SquareRoot K] in
/-- With one violated row the projection goes to that row's bound. -/
theorem abs_saturated_mean_sub_le {b : K} (ht : limits.torqueMax i = 87) (least : -87 ≤ b)
    (most : b ≤ 87) :
    |stdClamp (ridgeMean 1 (u i) b) (-limits.torqueMax i) (limits.torqueMax i) - b| ≤
      1e-4 + 1e-6 * |u i - b| := by
  rw [ht]
  calc |stdClamp (ridgeMean 1 (u i) b) (-87) 87 - b| ≤ |ridgeMean 1 (u i) b - b| :=
        abs_stdClamp_sub_le least most
    _ ≤ 1e-6 * |u i - b| := abs_ridgeMean_one_sub_le (u i) b
    _ ≤ 1e-4 + 1e-6 * |u i - b| := le_add_of_nonneg_left (by norm_num)

theorem filteredTorque_near_box (standard : StandardLimits limits)
    (box : minAllowedTorque limits q i ≤ boxUpper limits q eePos obstacles i)
    (single : i = 5 → LimitViolated limits q u i → ¬ObstacleViolated limits eePos obstacles u) :
    |filteredTorque limits q eePos obstacles u i - boxTorque limits q eePos obstacles u i| ≤
      1e-4 + 1e-6 * |u i - boxTorque limits q eePos obstacles u i| := by
  have ht := standard.torque i
  have order := standard.order q i
  have least := neg_le_minAllowedTorque limits q ht
  have most : boxUpper limits q eePos obstacles i ≤ 87 :=
    boxUpper_le_max.trans (maxAllowedTorque_le limits q ht)
  have outcome := filteredTorque_outcome (u := u) order eePos obstacles
  generalize filteredTorque limits q eePos obstacles u i = t at outcome
  cases outcome with
  | accepted _ upper lower free value =>
    have close : |u i - boxTorque limits q eePos obstacles u i| ≤ 1e-4 :=
      abs_sub_stdClamp_le box (by norm_num) (not_lt.mp lower)
        (lt_boxUpper_add_of_accepted upper free)
    have moved : |t - boxTorque limits q eePos obstacles u i| ≤
        |u i - boxTorque limits q eePos obstacles u i| := by
      rcases value with rfl | rfl
      · exact le_rfl
      · rw [ht]
        exact abs_stdClamp_sub_le (least.trans (le_stdClamp box)) ((stdClamp_le box).trans most)
    exact (moved.trans close).trans (le_add_of_nonneg_right (by positivity))
  | ceiling upper free =>
    have clamped : boxTorque limits q eePos obstacles u i = maxAllowedTorque limits q i := by
      have whole : maxAllowedTorque limits q i ≤ boxUpper limits q eePos obstacles i := by
        refine le_boxUpper_iff.mpr ⟨le_rfl, ?_⟩
        rintro rfl hne
        have bound := not_lt.mp fun h => single rfl (Or.inl upper) ⟨hne, h⟩
        exact le_of_add_le_add_right ((le_of_lt upper).trans bound)
      rw [boxTorque, stdClamp_eq_max_min box, boxUpper_le_max.antisymm whole,
        min_eq_left upper.ceiling_le, max_eq_right order]
    rw [clamped]
    exact abs_saturated_mean_sub_le ht (least.trans order) (maxAllowedTorque_le limits q ht)
  | floor lower free =>
    have clamped : boxTorque limits q eePos obstacles u i = minAllowedTorque limits q i := by
      rw [boxTorque, stdClamp_eq_max_min box, min_eq_right (lower.le_floor.trans box),
        max_eq_left lower.le_floor]
    rw [clamped]
    exact abs_saturated_mean_sub_le ht least (minAllowedTorque_le limits q ht)
  | obstacle upper lower acts =>
    obtain ⟨rfl, violated, _⟩ := acts
    have clamped : boxTorque limits q eePos obstacles u 5 = obstacleBound limits eePos obstacles := by
      have below : boxUpper limits q eePos obstacles 5 ≤ obstacleBound limits eePos obstacles :=
        (le_boxUpper_iff.mp le_rfl).2 rfl violated.1
      have above : obstacleBound limits eePos obstacles ≤ boxUpper limits q eePos obstacles 5 := by
        refine le_boxUpper_iff.mpr ⟨?_, fun _ _ => le_rfl⟩
        exact le_of_add_le_add_right (violated.2.le.trans (not_lt.mp upper))
      rw [boxTorque, stdClamp_eq_max_min box, below.antisymm above, min_eq_left violated.bound_le,
        max_eq_right (box.trans below)]
    have positive := obstacleBound_pos eePos ht violated.1
    rw [clamped]
    apply abs_saturated_mean_sub_le ht
    · norm_num at positive
      linarith
    · rcases obstacleBound_cases eePos ht violated.1 with bound | bound
      · rw [bound]
        norm_num
      · exact bound.le
  | ceilingObstacle upper acts =>
    obtain ⟨rfl, active⟩ := acts
    exact absurd active.1 (single rfl (Or.inl upper))
  | floorObstacle lower acts =>
    obtain ⟨rfl, active⟩ := acts
    exact absurd active.1 (single rfl (Or.inr lower))

/-- At most one violated row on joint 5 leaves the obstacle row to itself. -/
theorem not_obstacleViolated_of_single (single : ([upperRow limits q 5, lowerRow limits q 5,
      obstacleRow limits eePos obstacles].filter (·.Violated u)).length ≤ 1)
    (limit : LimitViolated limits q u 5) : ¬ObstacleViolated limits eePos obstacles u := by
  intro obstacle
  rcases limit with upper | lower
  · by_cases lower : LowerViolated limits q u 5 <;>
      simp [upperRow_violated, lowerRow_violated, obstacleRow_violated, upper, lower,
        obstacle] at single
  · by_cases upper : UpperViolated limits q u 5 <;>
      simp [upperRow_violated, lowerRow_violated, obstacleRow_violated, upper, lower,
        obstacle] at single

/-- Inside its limits the arm may always be left without torque. -/
theorem rowsWithin_zero (standard : StandardLimits limits)
    (inside : ∀ i, limits.qMin i ≤ q i ∧ q i ≤ limits.qMax i) :
    RowsWithin limits q eePos obstacles 0 0 := by
  refine (rowsWithin_iff le_rfl).mpr fun i => ⟨?_, ?_, fun _ hne => ?_⟩
  · simpa using maxAllowedTorque_nonneg (standard.torque i) (inside i).2
  · simpa using minAllowedTorque_nonpos (standard.torque i) (inside i).1
  · have positive := obstacleBound_pos eePos (standard.torque 5) hne
    norm_num at positive
    simp only [Pi.zero_apply]
    linarith

/-- A command on joint 5 alone is a matter of that joint's rows, inside the limits. -/
theorem rowsWithin_single {tol : K} (htol : 0 ≤ tol) (rest : ∀ i, 0 ≤ limits.torqueMax i)
    (inside : ∀ i, limits.qMin i ≤ q i ∧ q i ≤ limits.qMax i)
    (joint : JointWithin limits q eePos obstacles tol 5 c) :
    RowsWithin limits q eePos obstacles tol (Pi.single 5 c) := by
  refine (rowsWithin_iff htol).mpr fun i => ?_
  by_cases hi : i = 5
  · subst hi
    rwa [Pi.single_eq_same]
  · have floor := minAllowedTorque_nonpos_of (rest i) (inside i).1
    have ceiling := maxAllowedTorque_nonneg_of (rest i) (inside i).2
    rw [Pi.single_eq_of_ne hi]
    exact ⟨add_nonneg ceiling htol, by linarith, fun h => absurd h hi⟩

end Box

/-- The active-set solve refines the clamp to the box of its rows, up to the
tolerance and the ridge. -/
theorem filterTorques_refines_box {K : Type} [Field K] [LinearOrder K] [IsStrictOrderedRing K]
    [SquareRoot K] [ExactSolver K] {limits : KinematicLimits K} (standard : StandardLimits limits)
    (q qDot u : Fin DOF → K) (eePos : Fin 3 → Ieee K) (obstacles : List (Obstacle K))
    (satisfiable : ∃ w, RowsWithin limits q eePos obstacles 0 w)
    (single : ([upperRow limits q 5, lowerRow limits q 5,
      obstacleRow limits eePos obstacles].filter (·.Violated u)).length ≤ 1) :
    ∃ (output : SafetyOutput K) (safe : Fin DOF → K),
      filterTorques limits ⟨fun i => .fin (q i), fun i => .fin (qDot i), eePos⟩
        (fun i => .fin (u i)) obstacles = .ok output ∧
      output.safeTorque = (fun i => .fin (safe i)) ∧
      ∀ i, |safe i - boxTorque limits q eePos obstacles u i| ≤
        1e-4 + 1e-6 * |u i - boxTorque limits q eePos obstacles u i| := by
  obtain ⟨w, rows⟩ := satisfiable
  obtain ⟨intervened, answer⟩ := filterTorques_eq (standard.order q) qDot u eePos obstacles
  refine ⟨_, filteredTorque limits q eePos obstacles u, answer, rfl, fun i => ?_⟩
  apply filteredTorque_near_box standard (rows.floor_le_boxUpper i)
  rintro rfl
  exact not_obstacleViolated_of_single single

section Start

theorem daemonStart_inside (i : Fin DOF) :
    (daemonLimits : KinematicLimits ℝ).qMin i ≤ spikePosition i ∧
      spikePosition i ≤ (daemonLimits : KinematicLimits ℝ).qMax i := by
  simp only [daemonLimits, spikePosition]
  fin_cases i <;> constructor <;> norm_num

theorem start_floor : minAllowedTorque (daemonLimits : KinematicLimits ℝ) spikePosition 5 ≤ 0 :=
  minAllowedTorque_nonpos rfl (daemonStart_inside 5).1

theorem start_not_limitViolated : ¬LimitViolated daemonLimits spikePosition clashCommand 5 := by
  have floor := start_floor
  rintro (upper | lower)
  · rw [UpperViolated, spike_ceiling, clash_command] at upper
    norm_num at upper
  · rw [LowerViolated, clash_command] at lower
    norm_num at lower
    linarith

theorem daemonStart_single : ([upperRow daemonLimits spikePosition 5,
    lowerRow daemonLimits spikePosition 5, obstacleRow daemonLimits daemonState.endEffectorPos
      daemonObstacles].filter (·.Violated clashCommand)).length ≤ 1 := by
  have quiet := not_or.mp start_not_limitViolated
  rw [List.filter_cons_of_neg (by simpa [upperRow_violated] using quiet.1),
    List.filter_cons_of_neg (by simpa [lowerRow_violated] using quiet.2)]
  exact List.length_filter_le _ _

/-- Under a permissive obstacle row the start's arm takes 10 Nm on joint 5 as they are. -/
theorem start_accepted {eePos : Fin 3 → Ieee ℝ} {obstacles : List (Obstacle ℝ)}
    (bound : obstacleBound daemonLimits eePos obstacles = 87) :
    filteredTorque daemonLimits spikePosition eePos obstacles clashCommand = clashCommand := by
  have floor := start_floor
  have rows : RowsWithin daemonLimits spikePosition eePos obstacles 1e-4 clashCommand := by
    refine rowsWithin_single (by norm_num) (fun i => ?_) daemonStart_inside ⟨?_, ?_, fun _ _ => ?_⟩
    · rw [DaemonArm.start.torqueMax]
      norm_num
    · rw [spike_ceiling]
      norm_num
    · norm_num
      linarith
    · rw [bound]
      norm_num
  exact funext fun i => if_neg (not_someViolated_iff.mpr rows)

end Start

theorem filterTorques_refines_box_start :
    ∃ (output : SafetyOutput ℝ) (safe : Fin DOF → ℝ),
      filterTorques daemonLimits
        ⟨fun i => .fin (spikePosition i), fun _ => .fin 0, daemonState.endEffectorPos⟩
        (fun i => .fin (clashCommand i)) daemonObstacles = .ok output ∧
      output.safeTorque = (fun i => .fin (safe i)) ∧
      ∀ i, |safe i - boxTorque daemonLimits spikePosition daemonState.endEffectorPos daemonObstacles
          clashCommand i| ≤
        1e-4 + 1e-6 * |clashCommand i - boxTorque daemonLimits spikePosition
          daemonState.endEffectorPos daemonObstacles clashCommand i| :=
  filterTorques_refines_box DaemonArm.start.standard spikePosition (fun _ => 0) clashCommand
    daemonState.endEffectorPos daemonObstacles
    ⟨0, rowsWithin_zero DaemonArm.start.standard daemonStart_inside⟩ daemonStart_single

end NeuroKinetic
