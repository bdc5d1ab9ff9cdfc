import NeuroKinetic.JointExcursion

open Matrix RidgeProjection

namespace NeuroKinetic

variable {K : Type} [Field K] [LinearOrder K]

section Thresholds

variable [IsStrictOrderedRing K] {v c : K}

theorem lt_saturate_iff (low : -87 ≤ c) (high : c < 87) : c < stdClamp v (-87) 87 ↔ c < v := by
  rw [stdClamp_eq_max_min (by norm_num)]
  constructor
  · intro h
    rcases lt_max_iff.mp h with h | h
    · exact absurd h (not_lt.mpr low)
    · exact (lt_min_iff.mp h).2
  · exact fun h => lt_max_of_lt_right (lt_min high h)

theorem saturated_mean_le_iff {count u total : K} (hc : 0 ≤ count) (low : -87 ≤ c)
    (high : c < 87) :
    stdClamp (ridgeMean count u total) (-87) 87 ≤ c ↔ 1e-6 * u + total ≤ c * (count + 1e-6) := by
  have weight : 0 < count + 1e-6 := add_pos_of_nonneg_of_pos hc (by norm_num)
  rw [← not_lt, lt_saturate_iff low high, not_lt]
  exact div_le_iff₀ weight

/-- A cut-off obstacle row: the ceiling alone decides. -/
theorem saturated_ceiling_le_iff {hi ob u : K} (hu : |u| ≤ 1000) (least : -87 ≤ hi)
    (top : hi ≤ 87) (bound : ob = 0.05 ∨ ob = 87) :
    stdClamp (ridgeMean 1 u hi) (-87) 87 ≤ min hi ob + 2e-3 ↔
      ¬0.002 + 1e-6 * (ob + 0.002 - u) < hi - ob := by
  obtain ⟨below, above⟩ := abs_le.mp hu
  have own : stdClamp (ridgeMean 1 u hi) (-87) 87 ≤ hi + 2e-3 := by
    have mean := ridgeMean_one_le above least
    apply stdClamp_le_of_le (by norm_num) <;> norm_num at mean ⊢ <;> linarith
  rw [← min_add_add_right, le_min_iff, and_iff_right own]
  rcases bound with rfl | rfl
  · rw [saturated_mean_le_iff zero_le_one (by norm_num) (by norm_num), not_lt]
    norm_num
    constructor <;> intro h <;> linarith
  · have most : stdClamp (ridgeMean 1 u hi) (-87) 87 ≤ (87 : K) := stdClamp_le (by norm_num)
    refine iff_of_true (most.trans (by norm_num)) ?_
    norm_num
    linarith

/-- An averaged obstacle row: the mean decides against the lower of the two bounds. -/
theorem saturated_average_le_iff {hi ob u : K} (hu : |u| ≤ 1000) (least : -87 ≤ hi) (top : hi ≤ 87)
    (bound : ob = 0.05 ∨ ob = 87) :
    stdClamp (ridgeMean 2 u (hi + ob)) (-87) 87 ≤ min hi ob + 2e-3 ↔
      ¬0.004 + 1e-6 * (min hi ob + 0.002 - u) < |hi - ob| := by
  obtain ⟨below, above⟩ := abs_le.mp hu
  have obstacle : -87 ≤ ob ∧ ob ≤ 87 := by
    rcases bound with rfl | rfl <;> constructor <;> norm_num
  have low : -87 ≤ min hi ob := le_min least obstacle.1
  have high : max hi ob ≤ 87 := max_le top obstacle.2
  have sum := min_add_max hi ob
  rw [← max_sub_min_eq_abs' hi ob, not_lt, ← sum]
  generalize min hi ob = m at low sum ⊢
  generalize max hi ob = M at high sum ⊢
  by_cases inner : m + 2e-3 < 87
  · rw [saturated_mean_le_iff zero_le_two (by norm_num; linarith) inner]
    norm_num
    constructor <;> intro h <;> linarith
  · have most : stdClamp (ridgeMean 2 u (m + M)) (-87) 87 ≤ (87 : K) :=
      stdClamp_le (by norm_num)
    refine iff_of_true (most.trans (not_lt.mp inner)) ?_
    norm_num at inner ⊢
    linarith

end Thresholds

variable [SquareRoot K]

def RowsWithin (limits : KinematicLimits K) (q : Fin DOF → K) (eePos : Fin 3 → Ieee K)
    (obstacles : List (Obstacle K)) (tol : K) (t : Fin DOF → K) : Prop :=
  ∀ r ∈ constraintRows limits q eePos obstacles, r.violation t ≤ tol

/-- One joint against its own two rows and, on joint 5, the obstacle row. -/
structure JointWithin (limits : KinematicLimits K) (q : Fin DOF → K) (eePos : Fin 3 → Ieee K)
    (obstacles : List (Obstacle K)) (tol : K) (i : Fin DOF) (t : K) : Prop where
  ceiling : t ≤ maxAllowedTorque limits q i + tol
  floor : minAllowedTorque limits q i - tol ≤ t
  obstacle : i = 5 → obstacles ≠ [] → t ≤ obstacleBound limits eePos obstacles + tol

/-- The rows that the projection cannot serve at once: joint 5 is above its own
ceiling and above the obstacle bound. The obstacle row is then cut off by seven
limit rows before it, or averaged with the ceiling. -/
def ObstacleClash (limits : KinematicLimits K) (q : Fin DOF → K) (eePos : Fin 3 → Ieee K)
    (obstacles : List (Obstacle K)) (u : Fin DOF → K) : Prop :=
  UpperViolated limits q u 5 ∧ ObstacleViolated limits eePos obstacles u ∧
    if ∀ i, LimitViolated limits q u i then
      0.002 + 1e-6 * (obstacleBound limits eePos obstacles + 0.002 - u 5) <
        maxAllowedTorque limits q 5 - obstacleBound limits eePos obstacles
    else
      0.004 + 1e-6 * (min (maxAllowedTorque limits q 5) (obstacleBound limits eePos obstacles) +
          0.002 - u 5) <
        |maxAllowedTorque limits q 5 - obstacleBound limits eePos obstacles|

theorem obstacleBound_cases {limits : KinematicLimits K} (eePos : Fin 3 → Ieee K)
    {obstacles : List (Obstacle K)} (ht : limits.torqueMax 5 = 87) (hne : obstacles ≠ []) :
    obstacleBound limits eePos obstacles = 0.05 ∨ obstacleBound limits eePos obstacles = 87 := by
  obtain ⟨obs, rest, rfl⟩ := List.exists_cons_of_ne_nil hne
  simp only [obstacleBound, obstacleTorqueBound]
  split
  next => exact Or.inl rfl
  next => exact Or.inr ht

section Feasibility

variable [IsStrictOrderedRing K] {limits : KinematicLimits K} {q u t : Fin DOF → K}
  {eePos : Fin 3 → Ieee K} {obstacles : List (Obstacle K)} {tol : K}

theorem obstacleRow_violation (htol : 0 ≤ tol) :
    (obstacleRow limits eePos obstacles).violation t ≤ tol ↔
      (obstacles ≠ [] → t 5 ≤ obstacleBound limits eePos obstacles + tol) := by
  cases obstacles with
  | nil => simp [obstacleRow, ConstraintRow.violation, htol]
  | cons obs rest =>
    simp only [obstacleRow, ConstraintRow.violation, single_dotProduct, obstacleBound, ne_eq,
      reduceCtorEq, not_false_eq_true, forall_const]
    constructor <;> intro h <;> linarith

theorem rowsWithin_iff (htol : 0 ≤ tol) :
    RowsWithin limits q eePos obstacles tol t ↔
      ∀ i, JointWithin limits q eePos obstacles tol i (t i) := by
  constructor
  · intro rows i
    have pair : ∀ r ∈ [upperRow limits q i, lowerRow limits q i], r.violation t ≤ tol := by
      intro r hr
      exact rows r (List.mem_append_left _ (List.mem_flatMap.mpr ⟨i, List.mem_finRange i, hr⟩))
    have upper := pair (upperRow limits q i) (by simp)
    have lower := pair (lowerRow limits q i) (by simp)
    have last := rows _ (List.mem_append_right _ (List.mem_singleton_self _))
    simp only [upperRow, lowerRow, ConstraintRow.violation, single_dotProduct] at upper lower
    refine ⟨by linarith, by linarith, ?_⟩
    rintro rfl
    exact (obstacleRow_violation htol).mp last
  · intro joints r hr
    rcases List.mem_append.mp hr with hr | hr
    · obtain ⟨i, _, hi⟩ := List.mem_flatMap.mp hr
      have within := joints i
      rcases List.mem_cons.mp hi with rfl | hi
      · simp only [upperRow, ConstraintRow.violation, single_dotProduct]
        linarith [within.ceiling]
      · obtain rfl := List.mem_singleton.mp hi
        simp only [lowerRow, ConstraintRow.violation, single_dotProduct]
        linarith [within.floor]
    · obtain rfl := List.mem_singleton.mp hr
      exact (obstacleRow_violation htol).mpr ((joints 5).obstacle rfl)

omit [IsStrictOrderedRing K] in
theorem rowsWithin_iff_all : RowsWithin limits q eePos obstacles 1e-4 u ↔
    (constraintRows limits q eePos obstacles).all
      (fun r => decide (r.violation u ≤ 1e-4)) = true := by
  simp only [RowsWithin, List.all_eq_true, decide_eq_true_iff]

/-- The solver accepts exactly the commands that every row accepts. -/
theorem not_someViolated_iff :
    ¬SomeViolated limits q eePos obstacles u ↔ RowsWithin limits q eePos obstacles 1e-4 u := by
  rw [← someViolated_iff_rows, Bool.not_eq_false, rowsWithin_iff_all]

theorem obstacleBound_pos (eePos : Fin 3 → Ieee K) (ht : limits.torqueMax 5 = 87) (hne : obstacles ≠ []) :
    0.05 ≤ obstacleBound limits eePos obstacles := by
  obtain ⟨obs, rest, rfl⟩ := List.exists_cons_of_ne_nil hne
  exact obstacleTorqueBound_pos ht eePos obs

theorem JointWithin.saturate (standard : StandardLimits limits) (htol : 0 ≤ tol) {i : Fin DOF}
    {v : K} (h : JointWithin limits q eePos obstacles tol i v) :
    JointWithin limits q eePos obstacles tol i
      (stdClamp v (-limits.torqueMax i) (limits.torqueMax i)) := by
  have ht := standard.torque i
  have least := neg_le_maxAllowedTorque limits q ht
  have most := minAllowedTorque_le limits q ht
  refine ⟨?_, ?_, fun hi hne => ?_⟩
  · exact saturated_le ht h.ceiling (by linarith)
  · exact le_saturated ht h.floor (by linarith)
  · have bound := obstacleBound_pos eePos (standard.torque 5) hne
    exact saturated_le ht (h.obstacle hi hne) (by norm_num at bound; linarith)

/-- A joint that does not face two violated rows at once is kept within all of its rows. -/
theorem filteredTorque_jointWithin (standard : StandardLimits limits) (hu : ∀ i, |u i| ≤ 1000)
    (satisfiable : ∃ w, RowsWithin limits q eePos obstacles 0 w) (i : Fin DOF)
    (single : i = 5 → UpperViolated limits q u 5 → ¬ObstacleViolated limits eePos obstacles u) :
    JointWithin limits q eePos obstacles 2e-3 i
      (filteredTorque limits q eePos obstacles u i) := by
  obtain ⟨w, hw⟩ := satisfiable
  have feasible := (rowsWithin_iff le_rfl).mp hw i
  have ht := standard.torque i
  have order := standard.order q i
  have least := neg_le_maxAllowedTorque limits q ht
  have most := minAllowedTorque_le limits q ht
  have tolerance : (0 : K) ≤ 2e-3 := by norm_num
  obtain ⟨below, above⟩ := abs_le.mp (hu i)
  have floorObstacle : i = 5 → obstacles ≠ [] →
      minAllowedTorque limits q i ≤ obstacleBound limits eePos obstacles := by
    intro hi hne
    linarith [feasible.floor, feasible.obstacle hi hne]
  have outcome := filteredTorque_outcome (u := u) order eePos obstacles
  generalize filteredTorque limits q eePos obstacles u i = t at outcome
  cases outcome with
  | accepted _ upper lower free value =>
    have command : JointWithin limits q eePos obstacles 2e-3 i (u i) := by
      have ceiling := not_lt.mp upper
      have floor := not_lt.mp lower
      refine ⟨by norm_num at ceiling ⊢; linarith, by norm_num at floor ⊢; linarith, ?_⟩
      rintro rfl hne
      have bound := not_lt.mp (fun h => free ⟨rfl, hne, h⟩)
      norm_num at bound ⊢
      linarith
    rcases value with rfl | rfl
    · exact command
    · exact command.saturate standard tolerance
  | ceiling upper free =>
    apply JointWithin.saturate standard tolerance
    have mean := ridgeMean_one_le above least
    have keep := bound_le_ridgeMean_one upper.ceiling_le
    refine ⟨by norm_num at mean ⊢; linarith, by norm_num; linarith, ?_⟩
    rintro rfl hne
    have bound := not_lt.mp (fun h => single rfl upper ⟨hne, h⟩)
    have command := ridgeMean_one_le_command upper.ceiling_le
    norm_num at bound ⊢
    linarith
  | floor lower free =>
    apply JointWithin.saturate standard tolerance
    have mean := le_ridgeMean_one below most
    have keep := ridgeMean_one_le_bound lower.le_floor
    refine ⟨by norm_num; linarith, by norm_num at mean ⊢; linarith, fun hi hne => ?_⟩
    have bound := floorObstacle hi hne
    norm_num
    linarith
  | obstacle upper lower acts =>
    apply JointWithin.saturate standard tolerance
    obtain ⟨rfl, violated, _⟩ := acts
    have positive := obstacleBound_pos eePos (standard.torque 5) violated.1
    have mean := ridgeMean_one_le above (show -87 ≤ obstacleBound limits eePos obstacles by
      norm_num at positive; linarith)
    have keep := bound_le_ridgeMean_one violated.bound_le
    have command := ridgeMean_one_le_command violated.bound_le
    have bound := floorObstacle rfl violated.1
    have ceiling := not_lt.mp upper
    refine ⟨by norm_num at ceiling ⊢; linarith, by norm_num; linarith, fun _ _ => ?_⟩
    norm_num at mean ⊢
    linarith
  | ceilingObstacle upper acts =>
    obtain ⟨rfl, active⟩ := acts
    exact absurd active.1 (single rfl upper)
  | floorObstacle lower acts =>
    -- the command would be below the floor and above the obstacle bound
    obtain ⟨rfl, violated, _⟩ := acts
    have below := lt_of_lt_of_le lower (sub_le_self _ (by norm_num))
    exact absurd (below.trans_le (floorObstacle rfl violated.1)) (not_lt.mpr violated.bound_le)

theorem jointWithin_iff {v : K} (hne : obstacles ≠ [])
    (floor : minAllowedTorque limits q 5 - tol ≤ v) :
    JointWithin limits q eePos obstacles tol 5 v ↔
      v ≤ min (maxAllowedTorque limits q 5) (obstacleBound limits eePos obstacles) + tol := by
  rw [← min_add_add_right, le_min_iff]
  constructor
  · exact fun h => ⟨h.ceiling, h.obstacle rfl hne⟩
  · exact fun h => ⟨h.1, floor, fun _ _ => h.2⟩

theorem filteredTorque_clash_iff (standard : StandardLimits limits) (hu : |u 5| ≤ 1000)
    (satisfiable : ∃ w, RowsWithin limits q eePos obstacles 0 w)
    (upper : UpperViolated limits q u 5) (violated : ObstacleViolated limits eePos obstacles u) :
    JointWithin limits q eePos obstacles 2e-3 5 (filteredTorque limits q eePos obstacles u 5) ↔
      ¬ObstacleClash limits q eePos obstacles u := by
  obtain ⟨w, hw⟩ := satisfiable
  have feasible := (rowsWithin_iff le_rfl).mp hw 5
  have ht := standard.torque 5
  have order := standard.order q 5
  have least := neg_le_maxAllowedTorque limits q ht
  have top := maxAllowedTorque_le limits q ht
  have most := minAllowedTorque_le limits q ht
  have tolerance : (0 : K) ≤ 2e-3 := by norm_num
  have bound := obstacleBound_cases eePos ht violated.1
  have floor : minAllowedTorque limits q 5 ≤ obstacleBound limits eePos obstacles := by
    linarith [feasible.floor, feasible.obstacle rfl violated.1]
  have outcome := filteredTorque_outcome (u := u) order eePos obstacles
  have lower := not_both_violated order upper
  generalize filteredTorque limits q eePos obstacles u 5 = t at outcome
  cases outcome with
  | accepted _ free => exact absurd upper free
  | ceiling _ free =>
    have all : ∀ i, LimitViolated limits q u i := by
      by_contra h
      exact free ⟨rfl, violated, h⟩
    have mean := bound_le_ridgeMean_one upper.ceiling_le
    rw [ht, jointWithin_iff violated.1 ?_, saturated_ceiling_le_iff hu least top bound]
    · simp only [ObstacleClash, upper, violated, all, implies_true, if_true, true_and]
    · exact le_stdClamp_of_le (by norm_num) ((sub_le_self _ tolerance).trans (order.trans mean))
        ((sub_le_self _ tolerance).trans most)
  | floor h _ => exact absurd h lower
  | obstacle free _ _ => exact absurd upper free
  | ceilingObstacle _ acts =>
    have above := upper.ceiling_le
    have mean : minAllowedTorque limits q 5 ≤ ridgeMean 2 (u 5)
        (maxAllowedTorque limits q 5 + obstacleBound limits eePos obstacles) := by
      apply le_ridgeMean zero_le_two
      norm_num
      linarith
    rw [ht, jointWithin_iff violated.1 ?_, saturated_average_le_iff hu least top bound]
    · simp only [ObstacleClash, upper, violated, acts.2.2, if_false, true_and]
    · exact le_stdClamp_of_le (by norm_num) ((sub_le_self _ tolerance).trans mean)
        ((sub_le_self _ tolerance).trans most)
  | floorObstacle h _ => exact absurd h lower

theorem filteredTorque_rowsWithin_iff (standard : StandardLimits limits)
    (hu : ∀ i, |u i| ≤ 1000) (satisfiable : ∃ w, RowsWithin limits q eePos obstacles 0 w) :
    RowsWithin limits q eePos obstacles 2e-3 (filteredTorque limits q eePos obstacles u) ↔
      ¬ObstacleClash limits q eePos obstacles u := by
  rw [rowsWithin_iff (by norm_num)]
  by_cases both : UpperViolated limits q u 5 ∧ ObstacleViolated limits eePos obstacles u
  · rw [← filteredTorque_clash_iff standard (hu 5) satisfiable both.1 both.2]
    refine ⟨fun h => h 5, fun h i => ?_⟩
    by_cases hi : i = 5
    · rwa [hi]
    · exact filteredTorque_jointWithin standard hu satisfiable i (fun h => absurd h hi)
  · refine iff_of_true (fun i => ?_) (fun clash => both ⟨clash.1, clash.2.1⟩)
    exact filteredTorque_jointWithin standard hu satisfiable i
      (fun _ upper violated => both ⟨upper, violated⟩)

end Feasibility

section Clash

noncomputable def clashPosition : Fin DOF → ℝ := Pi.single 5 2.90

/-- A command of 10 Nm on joint 5, further past the limit and into the obstacle. -/
noncomputable def clashCommand : Fin DOF → ℝ := Pi.single 5 10

theorem clash_ceiling : maxAllowedTorque daemonLimits clashPosition 5 = -8.7 := by
  have ramp : stdClamp (((2.89 : ℝ) - 2.90) * 10 * 87) (-87) 87 = -8.7 := by
    rw [stdClamp_of_mem] <;> norm_num
  simp only [maxAllowedTorque, daemonLimits, clashPosition, Pi.single_eq_same, ramp]
  norm_num

theorem clash_obstacleBound :
    obstacleBound daemonLimits daemonState.endEffectorPos daemonObstacles = (0.05 : ℝ) := by
  have least : (0.02 : ℝ) ≤ 0.08 := by norm_num
  exact if_pos (daemon_obstacle_close least rfl rfl)

theorem clash_satisfiable :
    ∃ w, RowsWithin daemonLimits clashPosition daemonState.endEffectorPos daemonObstacles 0 w := by
  have standard := (DaemonArm.start (K := ℝ)).standard
  refine ⟨fun i => maxAllowedTorque daemonLimits clashPosition i, (rowsWithin_iff le_rfl).mpr ?_⟩
  intro i
  refine ⟨by simp, by simpa using standard.order clashPosition i, ?_⟩
  rintro rfl _
  rw [clash_ceiling, clash_obstacleBound]
  norm_num

theorem clash_command : clashCommand 5 = 10 := Pi.single_eq_same 5 10

/-- The command leaves joint 0 within its limits, so seven rows do not precede the obstacle's. -/
theorem clash_not_all :
    ¬∀ i, LimitViolated (daemonLimits : KinematicLimits ℝ) clashPosition clashCommand i := by
  intro all
  have ceiling : maxAllowedTorque (daemonLimits : KinematicLimits ℝ) clashPosition 0 = 87 :=
    maxAllowedTorque_far rfl (by simp [daemonLimits, clashPosition]; norm_num)
  have floor : minAllowedTorque (daemonLimits : KinematicLimits ℝ) clashPosition 0 = -87 :=
    minAllowedTorque_far rfl (by simp [daemonLimits, clashPosition]; norm_num)
  have command : clashCommand 0 = 0 := Pi.single_eq_of_ne (by decide) _
  rcases all 0 with h | h
  · simp only [UpperViolated, ceiling, command] at h
    norm_num at h
  · simp only [LowerViolated, floor, command] at h
    norm_num at h

theorem clash_upperViolated : UpperViolated daemonLimits clashPosition clashCommand 5 := by
  rw [UpperViolated, clash_ceiling, clash_command]
  norm_num

theorem clash_obstacleViolated : ObstacleViolated daemonLimits daemonState.endEffectorPos
    daemonObstacles clashCommand := by
  refine ⟨List.cons_ne_nil _ _, ?_⟩
  rw [clash_obstacleBound, clash_command]
  norm_num

theorem clash_obstacleClash : ObstacleClash daemonLimits clashPosition
    daemonState.endEffectorPos daemonObstacles clashCommand := by
  refine ⟨clash_upperViolated, clash_obstacleViolated, ?_⟩
  simp only [if_neg clash_not_all, clash_ceiling, clash_obstacleBound, clash_command]
  rw [min_eq_left (by norm_num), abs_of_neg (by norm_num)]
  norm_num

theorem clash_command_le (i : Fin DOF) : |clashCommand i| ≤ 1000 := by
  by_cases hi : i = 5
  · subst hi
    simp only [clashCommand, Pi.single_eq_same]
    norm_num
  · simp [clashCommand, Pi.single_eq_of_ne hi]

end Clash

/-- Feasibility of the filtered torque: it answers within its rows if and only
if there is no clash on joint 5. -/
theorem filterTorques_feasible_iff {K : Type} [Field K] [LinearOrder K] [IsStrictOrderedRing K]
    [SquareRoot K] [ExactSolver K] {limits : KinematicLimits K} (standard : StandardLimits limits)
    (q qDot u : Fin DOF → K) (hu : ∀ i, |u i| ≤ 1000) (eePos : Fin 3 → Ieee K)
    (obstacles : List (Obstacle K)) (satisfiable : ∃ w, RowsWithin limits q eePos obstacles 0 w) :
    ∃ output safe,
      filterTorques limits ⟨fun i => .fin (q i), fun i => .fin (qDot i), eePos⟩
        (fun i => .fin (u i)) obstacles = .ok output ∧
      output.safeTorque = (fun i => .fin (safe i)) ∧
      (RowsWithin limits q eePos obstacles 2e-3 safe ↔
        ∀ i, JointWithin limits q eePos obstacles 2e-3 i (safe i)) ∧
      (RowsWithin limits q eePos obstacles 2e-3 safe ↔ ¬ObstacleClash limits q eePos obstacles u) := by
  obtain ⟨intervened, answer⟩ := filterTorques_eq (standard.order q) qDot u eePos obstacles
  refine ⟨_, filteredTorque limits q eePos obstacles u, answer, rfl, ?_, ?_⟩
  · exact rowsWithin_iff (by norm_num)
  · exact filteredTorque_rowsWithin_iff standard hu satisfiable

theorem filterTorques_feasible_iff_clash :
    ∃ output safe,
      filterTorques daemonLimits
        ⟨fun i => .fin (clashPosition i), fun _ => .fin 0, daemonState.endEffectorPos⟩
        (fun i => .fin (clashCommand i)) daemonObstacles = .ok output ∧
      output.safeTorque = (fun i => .fin (safe i)) ∧
      (RowsWithin daemonLimits clashPosition daemonState.endEffectorPos daemonObstacles 2e-3 safe ↔
        ∀ i, JointWithin daemonLimits clashPosition daemonState.endEffectorPos daemonObstacles 2e-3
          i (safe i)) ∧
      (RowsWithin daemonLimits clashPosition daemonState.endEffectorPos daemonObstacles 2e-3 safe ↔
        ¬ObstacleClash daemonLimits clashPosition daemonState.endEffectorPos daemonObstacles
          clashCommand) :=
  filterTorques_feasible_iff DaemonArm.start.standard clashPosition (fun _ => 0) clashCommand
    clash_command_le _ _ clash_satisfiable

/-- Past its limit and pushed towards the obstacle, joint 5 ends above its ceiling. -/
theorem filterTorques_clash :
    (∃ w, RowsWithin daemonLimits clashPosition daemonState.endEffectorPos daemonObstacles 0 w) ∧
    (∀ i, |clashCommand i| ≤ 1000) ∧
    ∃ output safe,
      filterTorques daemonLimits
        ⟨fun i => .fin (clashPosition i), fun _ => .fin 0, daemonState.endEffectorPos⟩
        (fun i => .fin (clashCommand i)) daemonObstacles = .ok output ∧
      output.safeTorque = (fun i => .fin (safe i)) ∧
      ¬RowsWithin daemonLimits clashPosition daemonState.endEffectorPos daemonObstacles 2e-3
        safe := by
  have standard := (DaemonArm.start (K := ℝ)).standard
  obtain ⟨intervened, answer⟩ := filterTorques_eq (standard.order clashPosition) (fun _ => 0)
    clashCommand daemonState.endEffectorPos daemonObstacles
  refine ⟨clash_satisfiable, clash_command_le, _, _, answer, rfl, fun rows => ?_⟩
  exact (filteredTorque_rowsWithin_iff standard clash_command_le clash_satisfiable).mp rows
    clash_obstacleClash

end NeuroKinetic
