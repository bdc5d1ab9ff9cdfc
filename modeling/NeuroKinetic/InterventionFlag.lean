import NeuroKinetic.FilterErrors
import NeuroKinetic.ObstacleTightening

open Matrix RidgeProjection

namespace NeuroKinetic

variable {K : Type} [Field K] [LinearOrder K] [IsStrictOrderedRing K]

section Single

/-- How far the projection and the saturation move a joint that faces one violated
row at most. -/
def pullBack (limits : KinematicLimits K) (q u : Fin DOF → K) (i : Fin DOF) : K :=
  if UpperViolated limits q u i then
    max (u i - 87) ((u i - maxAllowedTorque limits q i) / 1.000001)
  else if LowerViolated limits q u i then
    max (-87 - u i) ((minAllowedTorque limits q i - u i) / 1.000001)
  else max 0 (|u i| - 87)

theorem abs_saturate_sub (v : K) : |stdClamp v (-87) 87 - v| = max 0 (|v| - 87) := by
  have range : (-87 : K) ≤ 87 := by norm_num
  rw [stdClamp_eq_max_min range]
  rcases le_total v 87 with high | high
  · rw [min_eq_right high]
    rcases le_total (-87) v with low | low
    · rw [max_eq_right low, sub_self, abs_zero, max_eq_left]
      exact sub_nonpos.mpr (abs_le.mpr ⟨low, high⟩)
    · have negative : v ≤ 0 := low.trans (by norm_num)
      rw [max_eq_left low, abs_of_nonneg (sub_nonneg.mpr low), abs_of_nonpos negative,
        max_eq_right (by linarith)]
      ring
  · have positive : 0 ≤ v := le_trans (by norm_num) high
    rw [min_eq_left high, max_eq_right range, abs_of_nonpos (sub_nonpos.mpr high),
      abs_of_nonneg positive, max_eq_right (by linarith)]
    ring

theorem ceiling_moved {u hi : K} (least : -87 ≤ hi) (h : hi ≤ u) :
    |stdClamp (ridgeMean 1 u hi) (-87) 87 - u| = max (u - 87) ((u - hi) / 1.000001) := by
  have mean := ridgeMean_mul zero_le_one u hi
  have above := bound_le_ridgeMean_one h
  have below := ridgeMean_one_le_command h
  have share : (u - hi) / 1.000001 = u - ridgeMean 1 u hi := by
    rw [div_eq_iff (by norm_num)]
    norm_num at mean ⊢
    linarith
  have value : stdClamp (ridgeMean 1 u hi) (-87) 87 = min 87 (ridgeMean 1 u hi) := by
    rw [stdClamp_eq_max_min (by norm_num), max_eq_right]
    exact le_min (by norm_num) (least.trans above)
  rw [share, value, abs_of_nonpos (sub_nonpos.mpr ((min_le_right _ _).trans below)), neg_sub]
  rcases le_total 87 (ridgeMean 1 u hi) with order | order
  · rw [min_eq_left order, max_eq_left (sub_le_sub_left order u)]
  · rw [min_eq_right order, max_eq_right (sub_le_sub_left order u)]

theorem floor_moved {u lo : K} (most : lo ≤ 87) (h : u ≤ lo) :
    |stdClamp (ridgeMean 1 u lo) (-87) 87 - u| = max (-87 - u) ((lo - u) / 1.000001) := by
  have mirrored := ceiling_moved (neg_le_neg most) (neg_le_neg h)
  rw [ridgeMean_neg, stdClamp_neg (by norm_num)] at mirrored
  rw [← abs_neg, neg_sub, ← neg_sub_neg, mirrored]
  congr 1
  · ring
  · rw [neg_sub_neg]

variable [SquareRoot K] {limits : KinematicLimits K} {q u : Fin DOF → K} {i : Fin DOF}
  {eePos : Fin 3 → Ieee K} {obstacles : List (Obstacle K)}

theorem abs_filteredTorque_sub (standard : StandardLimits limits)
    (some : SomeViolated limits q eePos obstacles u)
    (alone : ¬obstacleActs limits q eePos obstacles u i) :
    |filteredTorque limits q eePos obstacles u i - u i| = pullBack limits q u i := by
  have ht := standard.torque i
  have order := standard.order q i
  by_cases upper : UpperViolated limits q u i
  · rw [filteredTorque_limit order (Or.inl upper) alone, limitBound, if_pos upper, pullBack,
      if_pos upper, ht]
    exact ceiling_moved (neg_le_maxAllowedTorque limits q ht) upper.ceiling_le
  · by_cases lower : LowerViolated limits q u i
    · rw [filteredTorque_limit order (Or.inr lower) alone, limitBound, if_neg upper, pullBack,
        if_neg upper, if_pos lower, ht]
      exact floor_moved (minAllowedTorque_le limits q ht) lower.le_floor
    · rw [filteredTorque_saturated some (not_or.mpr ⟨upper, lower⟩) alone, pullBack,
        if_neg upper, if_neg lower, ht]
      exact abs_saturate_sub (u i)

/-- A joint that was moved by little was not far above its ceiling or below its floor. -/
theorem limits_within_of_moved (standard : StandardLimits limits)
    (some : SomeViolated limits q eePos obstacles u)
    (alone : ¬obstacleActs limits q eePos obstacles u i)
    (moved : |filteredTorque limits q eePos obstacles u i - u i| ≤ 1e-2) :
    u i ≤ maxAllowedTorque limits q i + 0.03 ∧ minAllowedTorque limits q i - 0.03 ≤ u i := by
  have order := standard.order q i
  rw [abs_filteredTorque_sub standard some alone] at moved
  by_cases upper : UpperViolated limits q u i
  · have above := upper.ceiling_le
    rw [pullBack, if_pos upper] at moved
    have share := (div_le_iff₀ (by norm_num)).mp ((le_max_right _ _).trans moved)
    norm_num at share ⊢
    constructor <;> linarith
  · by_cases lower : LowerViolated limits q u i
    · have below := lower.le_floor
      rw [pullBack, if_neg upper, if_pos lower] at moved
      have share := (div_le_iff₀ (by norm_num)).mp ((le_max_right _ _).trans moved)
      norm_num at share ⊢
      constructor <;> linarith
    · have ceiling := not_lt.mp upper
      have floor := not_lt.mp lower
      norm_num at ceiling floor ⊢
      constructor <;> linarith

end Single

section Pair

variable [SquareRoot K] {limits : KinematicLimits K} {q u : Fin DOF → K} {i : Fin DOF}
  {eePos : Fin 3 → Ieee K} {obstacles : List (Obstacle K)}

/-- An obstacle row that acts alone or with the ceiling pulls one way, so a small
move means small violations. -/
theorem jointWithin_of_moved (standard : StandardLimits limits)
    (acts : obstacleActs limits q eePos obstacles u 5) (lower : ¬LowerViolated limits q u 5)
    (moved : |filteredTorque limits q eePos obstacles u 5 - u 5| ≤ 1e-2) :
    JointWithin limits q eePos obstacles 0.03 5 (u 5) := by
  have ht := standard.torque 5
  have order := standard.order q 5
  have bound := acts.2.1.bound_le
  have positive := obstacleBound_pos eePos ht acts.2.1.1
  have near := (abs_le.mp moved).1
  have floor := not_lt.mp lower
  norm_num at positive near floor
  by_cases upper : UpperViolated limits q u 5
  · have above := upper.ceiling_le
    have least := neg_le_maxAllowedTorque limits q ht
    have mean := ridgeMean_mul zero_le_two (u 5)
      (maxAllowedTorque limits q 5 + obstacleBound limits eePos obstacles)
    rw [filteredTorque_limit_obstacle order (Or.inl upper) acts, limitBound, if_pos upper] at near
    norm_num at mean
    have kept := saturated_le ht (le_refl (ridgeMean 2 (u 5)
      (maxAllowedTorque limits q 5 + obstacleBound limits eePos obstacles))) (by linarith)
    refine ⟨?_, ?_, fun _ _ => ?_⟩ <;> norm_num <;> linarith
  · have ceiling := not_lt.mp upper
    have mean := ridgeMean_mul zero_le_one (u 5) (obstacleBound limits eePos obstacles)
    rw [filteredTorque_obstacle (not_or.mpr ⟨upper, lower⟩) acts] at near
    norm_num at mean ceiling
    have kept := saturated_le ht (le_refl (ridgeMean 1 (u 5) (obstacleBound limits eePos obstacles)))
      (by linarith)
    refine ⟨?_, ?_, fun _ _ => ?_⟩ <;> norm_num <;> linarith

/-- Where joint 5 goes between a floor and an obstacle bound below it. -/
def balance (limits : KinematicLimits K) (q : Fin DOF → K) (eePos : Fin 3 → Ieee K)
    (obstacles : List (Obstacle K)) (u : Fin DOF → K) : K :=
  (minAllowedTorque limits q 5 + obstacleBound limits eePos obstacles - 2 * u 5) / 2.000001

theorem filteredTorque_sub_balance (standard : StandardLimits limits)
    (acts : obstacleActs limits q eePos obstacles u 5) (lower : LowerViolated limits q u 5) :
    filteredTorque limits q eePos obstacles u 5 - u 5 = balance limits q eePos obstacles u := by
  have ht := standard.torque 5
  have order := standard.order q 5
  have upper : ¬UpperViolated limits q u 5 := fun upper => not_both_violated order upper lower
  have bound := acts.2.1.bound_le
  have positive := obstacleBound_pos eePos ht acts.2.1.1
  have below := lower.le_floor
  have most := minAllowedTorque_le limits q ht
  have mean := ridgeMean_mul zero_le_two (u 5)
    (minAllowedTorque limits q 5 + obstacleBound limits eePos obstacles)
  norm_num at positive mean
  rw [filteredTorque_limit_obstacle order (Or.inr lower) acts, limitBound, if_neg upper, ht,
    stdClamp_of_mem (by linarith) (by linarith), balance, eq_div_iff (by norm_num)]
  norm_num
  linarith

end Pair

section Flag

variable [SquareRoot K] {limits : KinematicLimits K} {q u : Fin DOF → K}
  {eePos : Fin 3 → Ieee K} {obstacles : List (Obstacle K)}

/-- Commands that violate a row badly and are hardly moved: the obstacle row is cut
off by seven limit rows that are all nearly kept, or outweighed by a floor that joint 5
misses by as much as it exceeds the obstacle bound. -/
def BlindSpot (limits : KinematicLimits K) (q : Fin DOF → K) (eePos : Fin 3 → Ieee K)
    (obstacles : List (Obstacle K)) (u : Fin DOF → K) : Prop :=
  ObstacleViolated limits eePos obstacles u ∧
    if ∀ i, LimitViolated limits q u i then
      0.03 < u 5 - obstacleBound limits eePos obstacles ∧
        ∑ i, pullBack limits q u i * pullBack limits q u i ≤ 1e-4
    else
      LowerViolated limits q u 5 ∧
        0.03 < max (u 5 - obstacleBound limits eePos obstacles)
          (minAllowedTorque limits q 5 - u 5) ∧
        ∑ i, (if i = 5 then
            balance limits q eePos obstacles u * balance limits q eePos obstacles u
          else pullBack limits q u i * pullBack limits q u i) ≤ 1e-4

omit [SquareRoot K] in
theorem moved_of_silent {safe : Fin DOF → K} (silent : (safe - u) ⬝ᵥ (safe - u) ≤ 1e-4)
    (i : Fin DOF) : |safe i - u i| ≤ 1e-2 := by
  have square : (safe i - u i) * (safe i - u i) ≤ (safe - u) ⬝ᵥ (safe - u) :=
    Finset.single_le_sum (fun j _ => mul_self_nonneg ((safe - u) j)) (Finset.mem_univ i)
  have tolerance : |(1e-2 : K)| = 1e-2 := abs_of_pos (by norm_num)
  rw [← tolerance, abs_le_iff_mul_self_le]
  refine (square.trans silent).trans ?_
  norm_num

omit [IsStrictOrderedRing K] in
theorem alone_of_cutOff (all : ∀ i, LimitViolated limits q u i) (i : Fin DOF) :
    ¬obstacleActs limits q eePos obstacles u i := fun acts => acts.2.2 all

omit [IsStrictOrderedRing K] in
theorem alone_of_ne {i : Fin DOF} (hi : i ≠ 5) : ¬obstacleActs limits q eePos obstacles u i :=
  fun acts => hi acts.1

/-- The rows of a silent command, but for those on joint 5. -/
theorem rowsWithin_iff_joint (standard : StandardLimits limits)
    (some : SomeViolated limits q eePos obstacles u)
    (silent : (filteredTorque limits q eePos obstacles u - u) ⬝ᵥ
      (filteredTorque limits q eePos obstacles u - u) ≤ 1e-4) :
    RowsWithin limits q eePos obstacles 0.03 u ↔
      JointWithin limits q eePos obstacles 0.03 5 (u 5) := by
  rw [rowsWithin_iff (by norm_num)]
  refine ⟨fun within => within 5, fun joint i => ?_⟩
  by_cases hi : i = 5
  · rwa [hi]
  · have limit := limits_within_of_moved standard some (alone_of_ne hi) (moved_of_silent silent i)
    exact ⟨limit.1, limit.2, fun h => absurd h hi⟩

/-- With the obstacle row cut off, every joint is moved by its limit row alone. -/
theorem silent_cutOff_iff (standard : StandardLimits limits)
    (violated : ObstacleViolated limits eePos obstacles u) (all : ∀ i, LimitViolated limits q u i) :
    ((filteredTorque limits q eePos obstacles u - u) ⬝ᵥ
        (filteredTorque limits q eePos obstacles u - u) ≤ 1e-4 →
        RowsWithin limits q eePos obstacles 0.03 u) ↔
      ¬BlindSpot limits q eePos obstacles u := by
  have some : SomeViolated limits q eePos obstacles u := Or.inr violated
  have alone : ∀ i, ¬obstacleActs limits q eePos obstacles u i := alone_of_cutOff all
  have sum : (filteredTorque limits q eePos obstacles u - u) ⬝ᵥ
      (filteredTorque limits q eePos obstacles u - u) =
        ∑ i, pullBack limits q u i * pullBack limits q u i := by
    refine Finset.sum_congr rfl fun i _ => ?_
    rw [Pi.sub_apply, ← abs_mul_abs_self, abs_filteredTorque_sub standard some (alone i)]
  simp only [BlindSpot, violated, if_pos all, true_and, not_and, ← sum]
  constructor
  · intro within far silent
    have joint := (rowsWithin_iff_joint standard some silent).mp (within silent)
    have kept := joint.obstacle rfl violated.1
    linarith
  · intro quiet silent
    have limit := limits_within_of_moved standard some (alone 5) (moved_of_silent silent 5)
    refine (rowsWithin_iff_joint standard some silent).mpr ⟨limit.1, limit.2, fun _ _ => ?_⟩
    have kept := not_lt.mp fun far => quiet far silent
    linarith

/-- Against a floor the obstacle row and the floor may cancel out. -/
theorem silent_floor_iff (standard : StandardLimits limits)
    (acts : obstacleActs limits q eePos obstacles u 5) (lower : LowerViolated limits q u 5) :
    ((filteredTorque limits q eePos obstacles u - u) ⬝ᵥ
        (filteredTorque limits q eePos obstacles u - u) ≤ 1e-4 →
        RowsWithin limits q eePos obstacles 0.03 u) ↔
      ¬BlindSpot limits q eePos obstacles u := by
  have violated := acts.2.1
  have some : SomeViolated limits q eePos obstacles u := Or.inr violated
  have sum : (filteredTorque limits q eePos obstacles u - u) ⬝ᵥ
      (filteredTorque limits q eePos obstacles u - u) = ∑ i, (if i = 5 then
          balance limits q eePos obstacles u * balance limits q eePos obstacles u
        else pullBack limits q u i * pullBack limits q u i) := by
    refine Finset.sum_congr rfl fun i _ => ?_
    by_cases hi : i = 5
    · rw [if_pos hi, hi, Pi.sub_apply, filteredTorque_sub_balance standard acts lower]
    · rw [if_neg hi, Pi.sub_apply, ← abs_mul_abs_self,
        abs_filteredTorque_sub standard some (alone_of_ne hi)]
  simp only [BlindSpot, violated, if_neg acts.2.2, lower, true_and, not_and, ← sum]
  constructor
  · intro within far silent
    have joint := (rowsWithin_iff_joint standard some silent).mp (within silent)
    have kept := joint.obstacle rfl violated.1
    have floor := joint.floor
    rcases lt_max_iff.mp far with far | far <;> linarith
  · intro quiet silent
    have kept := not_lt.mp fun far => quiet far silent
    have order := standard.order q 5
    have below := lower.le_floor
    obtain ⟨obstacle, floor⟩ := max_le_iff.mp kept
    refine (rowsWithin_iff_joint standard some silent).mpr ⟨?_, ?_, fun _ _ => ?_⟩
    · norm_num
      linarith
    · linarith
    · linarith

variable [LawfulSquareRoot K]

/-- A silent flag is right about the rows, outside the blind spot. -/
theorem silent_rowsWithin_iff (standard : StandardLimits limits) :
    (intervened (filteredTorque limits q eePos obstacles u) u = false →
        RowsWithin limits q eePos obstacles 0.03 u) ↔
      ¬BlindSpot limits q eePos obstacles u := by
  rw [Bool.eq_false_iff, ne_eq, intervened_iff, not_lt]
  by_cases some : SomeViolated limits q eePos obstacles u
  · by_cases violated : ObstacleViolated limits eePos obstacles u
    · by_cases all : ∀ i, LimitViolated limits q u i
      · exact silent_cutOff_iff standard violated all
      · have acts : obstacleActs limits q eePos obstacles u 5 := ⟨rfl, violated, all⟩
        by_cases lower : LowerViolated limits q u 5
        · exact silent_floor_iff standard acts lower
        · refine iff_of_true (fun silent => ?_) fun blind => lower ?_
          · rw [rowsWithin_iff_joint standard some silent]
            exact jointWithin_of_moved standard acts lower (moved_of_silent silent 5)
          · have branch := blind.2
            rw [if_neg all] at branch
            exact branch.1
    · refine iff_of_true (fun silent => ?_) fun blind => violated blind.1
      have limit := limits_within_of_moved standard some (fun acts => violated acts.2.1)
        (moved_of_silent silent 5)
      rw [rowsWithin_iff_joint standard some silent]
      refine ⟨limit.1, limit.2, fun _ hne => ?_⟩
      have kept := not_lt.mp fun h => violated ⟨hne, h⟩
      norm_num at kept ⊢
      linarith
  · refine iff_of_true (fun _ r hr => ?_) fun blind => some (Or.inr blind.1)
    exact (not_someViolated_iff.mp some r hr).trans (by norm_num)

end Flag

omit [IsStrictOrderedRing K] in
theorem not_rowsWithin_iff [SquareRoot K] {limits : KinematicLimits K} {q u : Fin DOF → K}
    {eePos : Fin 3 → Ieee K} {obstacles : List (Obstacle K)} {tol : K} :
    ¬RowsWithin limits q eePos obstacles tol u ↔
      ∃ r ∈ constraintRows limits q eePos obstacles, tol < r.violation u := by
  simp only [RowsWithin, not_forall, not_le, exists_prop]

/-- For which commands the flag tells the truth about the rows. -/
theorem intervention_flag_iff {K : Type} [Field K] [LinearOrder K] [IsStrictOrderedRing K]
    [SquareRoot K] [LawfulSquareRoot K] [ExactSolver K] {limits : KinematicLimits K}
    (standard : StandardLimits limits) (q qDot u : Fin DOF → K) (eePos : Fin 3 → Ieee K)
    (obstacles : List (Obstacle K)) :
    ∃ output : SafetyOutput K,
      filterTorques limits ⟨fun i => .fin (q i), fun i => .fin (qDot i), eePos⟩
        (fun i => .fin (u i)) obstacles = .ok output ∧
      (((output.interventionTriggered = false → RowsWithin limits q eePos obstacles 0.03 u) ∧
          (output.interventionTriggered = true →
            ∃ r ∈ constraintRows limits q eePos obstacles, 1e-4 < r.violation u)) ↔
        ¬BlindSpot limits q eePos obstacles u) := by
  refine ⟨_, filterTorques_flagged (standard.order q) qDot u eePos obstacles, ?_⟩
  rw [← not_rowsWithin_iff, silent_rowsWithin_iff standard]
  refine and_iff_left fun flagged rows => ?_
  have accepted : filteredTorque limits q eePos obstacles u = u :=
    funext fun i => if_neg (not_someViolated_iff.mpr rows)
  rw [accepted, intervened_self] at flagged
  cases flagged

section Balanced

/-- The mean of joint 5's floor of 43.5 and the obstacle bound of 0.05. -/
noncomputable def balancedCommand : Fin DOF → ℝ := Pi.single 5 21.775

theorem balanced_command : balancedCommand 5 = 21.775 := Pi.single_eq_same 5 21.775

theorem balanced_free {i : Fin DOF} (hi : i ≠ 5) :
    ¬LimitViolated daemonLimits pastPosition balancedCommand i := by
  have command : balancedCommand i = 0 := Pi.single_eq_of_ne hi _
  have position : pastPosition i = 0 := Pi.single_eq_of_ne hi _
  have ceiling : 0 ≤ maxAllowedTorque daemonLimits pastPosition i := by
    refine maxAllowedTorque_nonneg rfl ?_
    rw [position]
    simp only [daemonLimits]
    norm_num
  have floor : minAllowedTorque daemonLimits pastPosition i ≤ 0 := by
    refine minAllowedTorque_nonpos rfl ?_
    rw [position]
    simp only [daemonLimits]
    norm_num
  rintro (upper | lower)
  · rw [UpperViolated, command] at upper
    norm_num at upper
    linarith
  · rw [LowerViolated, command] at lower
    norm_num at lower
    linarith

theorem balanced_pullBack {i : Fin DOF} (hi : i ≠ 5) :
    pullBack daemonLimits pastPosition balancedCommand i = 0 := by
  have command : balancedCommand i = 0 := Pi.single_eq_of_ne hi _
  have quiet := not_or.mp (balanced_free hi)
  rw [pullBack, if_neg quiet.1, if_neg quiet.2, command, abs_zero]
  norm_num

theorem balanced_blindSpot : BlindSpot daemonLimits pastPosition daemonState.endEffectorPos
    daemonObstacles balancedCommand := by
  have none : ¬∀ i, LimitViolated daemonLimits pastPosition balancedCommand i :=
    fun all => balanced_free (by decide : (0 : Fin DOF) ≠ 5) (all 0)
  have equal : balance daemonLimits pastPosition daemonState.endEffectorPos daemonObstacles
      balancedCommand = 0 := by
    rw [balance, past_floor, clash_obstacleBound, balanced_command]
    norm_num
  refine ⟨⟨List.cons_ne_nil _ _, ?_⟩, ?_⟩
  · rw [clash_obstacleBound, balanced_command]
    norm_num
  · rw [if_neg none]
    refine ⟨?_, lt_max_of_lt_left ?_, ?_⟩
    · rw [LowerViolated, past_floor, balanced_command]
      norm_num
    · rw [clash_obstacleBound, balanced_command]
      norm_num
    · rw [Finset.sum_eq_zero fun i _ => ?_]
      · norm_num
      · by_cases hi : i = 5
        · rw [if_pos hi, equal, mul_zero]
        · rw [if_neg hi, balanced_pullBack hi, mul_zero]

theorem intervention_flag_iff_balanced :
    ∃ output : SafetyOutput ℝ,
      filterTorques daemonLimits
        ⟨fun i => .fin (pastPosition i), fun _ => .fin 0, daemonState.endEffectorPos⟩
        (fun i => .fin (balancedCommand i)) daemonObstacles = .ok output ∧
      (((output.interventionTriggered = false → RowsWithin daemonLimits pastPosition
            daemonState.endEffectorPos daemonObstacles 0.03 balancedCommand) ∧
          (output.interventionTriggered = true →
            ∃ r ∈ constraintRows daemonLimits pastPosition daemonState.endEffectorPos
              daemonObstacles, 1e-4 < r.violation balancedCommand)) ↔
        ¬BlindSpot daemonLimits pastPosition daemonState.endEffectorPos daemonObstacles
          balancedCommand) :=
  intervention_flag_iff DaemonArm.start.standard pastPosition (fun _ => 0) balancedCommand
    daemonState.endEffectorPos daemonObstacles

/-- A command that violates two rows by more than 21 Nm and raises no flag. -/
theorem intervention_flag_silent :
    (∀ i, |balancedCommand i| ≤ 1000) ∧ ∃ output : SafetyOutput ℝ,
      filterTorques daemonLimits
        ⟨fun i => .fin (pastPosition i), fun _ => .fin 0, daemonState.endEffectorPos⟩
        (fun i => .fin (balancedCommand i)) daemonObstacles = .ok output ∧
      output.interventionTriggered = false ∧
      ¬RowsWithin daemonLimits pastPosition daemonState.endEffectorPos daemonObstacles 0.03
        balancedCommand := by
  have standard := (DaemonArm.start (K := ℝ)).standard
  refine ⟨fun i => ?_, _, filterTorques_flagged (standard.order pastPosition) (fun _ => 0)
    balancedCommand daemonState.endEffectorPos daemonObstacles, ?_⟩
  · by_cases hi : i = 5
    · subst hi
      rw [balanced_command]
      norm_num
    · have command : balancedCommand i = 0 := Pi.single_eq_of_ne hi _
      rw [command]
      norm_num
  · exact Classical.not_imp.mp fun truth =>
      (silent_rowsWithin_iff standard).mp truth balanced_blindSpot

end Balanced

end NeuroKinetic
