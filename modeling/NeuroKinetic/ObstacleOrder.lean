import NeuroKinetic.BoxProjection
import NeuroKinetic.JointExits
import NeuroKinetic.Library.RunningMinimum

open RidgeProjection

namespace NeuroKinetic

variable {K : Type} [Field K] [LinearOrder K] [SquareRoot K]

section Rows

variable {limits : KinematicLimits K} {eePos : Fin 3 → Ieee K} {xs ys : List (Obstacle K)}

/-- The reported margin is that of the closest obstacle, wherever it stands in the list. -/
theorem minMargin_perm (perm : xs.Perm ys) :
    minMargin limits eePos xs = minMargin limits eePos ys :=
  Ieee.foldl_lesser_perm (computeObstacleBarrier limits eePos) perm (.fin 100)

def Near (limits : KinematicLimits K) (eePos : Fin 3 → Ieee K) (obs : Obstacle K) : Prop :=
  computeObstacleBarrier limits eePos obs < .fin 0.05

theorem minMargin_lt_iff [IsStrictOrderedRing K] :
    minMargin limits eePos xs < .fin 0.05 ↔ ∃ obs ∈ xs, Near limits eePos obs := by
  have start : (.fin 100 : Ieee K) ≠ .nan := fun h => by cases h
  have clear : ¬(.fin 100 : Ieee K) < .fin 0.05 := by
    rw [Ieee.fin_lt_fin]
    norm_num
  exact (Ieee.foldl_lesser_lt_iff (computeObstacleBarrier limits eePos) start xs).trans
    (or_iff_right clear)

/-- Whenever the reported margin is inside the bubble, the obstacle row is the
restrictive one. -/
def BoundInForce (limits : KinematicLimits K) (eePos : Fin 3 → Ieee K)
    (obstacles : List (Obstacle K)) (margin : Ieee K) : Prop :=
  margin < .fin 0.05 → obstacleRow limits eePos obstacles = ⟨Pi.single 5 (-1), -0.05⟩

/-- The first obstacle is near whenever any is. -/
def FrontDecides (limits : KinematicLimits K) (eePos : Fin 3 → Ieee K)
    (obstacles : List (Obstacle K)) : Prop :=
  (∃ obs ∈ obstacles, Near limits eePos obs) →
    (∃ obs rest, obstacles = obs :: rest ∧ Near limits eePos obs) ∨ limits.torqueMax 5 = 0.05

theorem obstacleRow_restrictive_iff (hne : xs ≠ []) :
    obstacleRow limits eePos xs = ⟨Pi.single 5 (-1), -0.05⟩ ↔
      (∃ obs rest, xs = obs :: rest ∧ Near limits eePos obs) ∨ limits.torqueMax 5 = 0.05 := by
  obtain ⟨first, rest, rfl⟩ := List.exists_cons_of_ne_nil hne
  by_cases near : Near limits eePos first
  · have bound : obstacleTorqueBound limits eePos first = 0.05 := if_pos near
    rw [obstacleRow, bound]
    exact iff_of_true rfl (Or.inl ⟨first, rest, rfl, near⟩)
  · have bound : obstacleTorqueBound limits eePos first = limits.torqueMax 5 := if_neg near
    rw [obstacleRow, bound, ConstraintRow.mk.injEq, neg_inj, and_iff_right rfl]
    refine ⟨Or.inr, fun h => h.resolve_left ?_⟩
    rintro ⟨obs, tail, same, front⟩
    obtain ⟨rfl, _⟩ := List.cons.inj same
    exact near front

theorem boundInForce_iff [IsStrictOrderedRing K] :
    BoundInForce limits eePos xs (minMargin limits eePos xs) ↔ FrontDecides limits eePos xs := by
  rw [BoundInForce, minMargin_lt_iff, FrontDecides]
  refine forall_congr' fun near => obstacleRow_restrictive_iff ?_
  obtain ⟨obs, member, _⟩ := near
  exact List.ne_nil_of_mem member

theorem obstacleRow_of_clear (hne : xs ≠ []) (clear : ¬∃ obs ∈ xs, Near limits eePos obs) :
    obstacleRow limits eePos xs = ⟨Pi.single 5 (-1), -limits.torqueMax 5⟩ := by
  obtain ⟨first, rest, rfl⟩ := List.exists_cons_of_ne_nil hne
  have bound : obstacleTorqueBound limits eePos first = limits.torqueMax 5 :=
    if_neg fun near => clear ⟨first, List.mem_cons_self, near⟩
  rw [obstacleRow, bound]

/-- Two orders of one list build the same last row, if in both the first obstacle decides. -/
theorem obstacleRow_perm (perm : xs.Perm ys) (left : FrontDecides limits eePos xs)
    (right : FrontDecides limits eePos ys) :
    obstacleRow limits eePos xs = obstacleRow limits eePos ys := by
  by_cases hne : xs = []
  · subst hne
    rw [List.nil_perm.mp perm]
  · have hne' : ys ≠ [] := fun h => hne (List.perm_nil.mp (h ▸ perm))
    by_cases near : ∃ obs ∈ xs, Near limits eePos obs
    · have near' : ∃ obs ∈ ys, Near limits eePos obs := by
        obtain ⟨obs, member, close⟩ := near
        exact ⟨obs, perm.mem_iff.mp member, close⟩
      rw [(obstacleRow_restrictive_iff hne).mpr (left near),
        (obstacleRow_restrictive_iff hne').mpr (right near')]
    · have clear' : ¬∃ obs ∈ ys, Near limits eePos obs := by
        rintro ⟨obs, member, close⟩
        exact near ⟨obs, perm.mem_iff.mpr member, close⟩
      rw [obstacleRow_of_clear hne near, obstacleRow_of_clear hne' clear']

end Rows

/-- In which orders of the obstacles the filter answers alike, with the bound in
force that its margin calls for. The margin itself is the same in every order. -/
theorem filterTorques_perm_iff {K : Type} [Field K] [LinearOrder K] [IsStrictOrderedRing K]
    [SquareRoot K] [ExactSolver K] (limits : KinematicLimits K) (q qDot u : Fin DOF → K)
    (eePos : Fin 3 → Ieee K) {xs ys : List (Obstacle K)} (perm : xs.Perm ys) :
    ∃ first second : SafetyOutput K,
      filterTorques limits ⟨fun i => .fin (q i), fun i => .fin (qDot i), eePos⟩
        (fun i => .fin (u i)) xs = .ok first ∧
      filterTorques limits ⟨fun i => .fin (q i), fun i => .fin (qDot i), eePos⟩
        (fun i => .fin (u i)) ys = .ok second ∧
      first.barrierMargin = second.barrierMargin ∧
      (((first.safeTorque = second.safeTorque ∧
            first.interventionTriggered = second.interventionTriggered) ∧
          BoundInForce limits eePos xs first.barrierMargin ∧
          BoundInForce limits eePos ys second.barrierMargin) ↔
        FrontDecides limits eePos xs ∧ FrontDecides limits eePos ys) := by
  refine ⟨_, _, filterTorques_solved limits q qDot u eePos xs,
    filterTorques_solved limits q qDot u eePos ys, minMargin_perm perm, ?_⟩
  rw [boundInForce_iff, boundInForce_iff]
  refine ⟨fun h => h.2, fun decided => ⟨?_, decided⟩⟩
  have rows : constraintRows limits q eePos xs = constraintRows limits q eePos ys := by
    rw [constraintRows, constraintRows, obstacleRow_perm perm decided.1 decided.2]
  rw [rows]
  exact ⟨rfl, rfl⟩

section Told

variable [IsStrictOrderedRing K] {limits : KinematicLimits K} {q : Fin DOF → K}
  {eePos : Fin 3 → Ieee K} {xs ys : List (Obstacle K)}

/-- The ceiling of every joint, but far above it on joint 5: two rows of joint 5 are
violated, and no other joint's. -/
def tellTale (limits : KinematicLimits K) (q : Fin DOF → K) : Fin DOF → K :=
  Function.update (maxAllowedTorque limits q) 5 1000

omit [SquareRoot K] [IsStrictOrderedRing K] in
theorem tellTale_five : tellTale limits q 5 = 1000 := Function.update_self 5 1000 _

omit [SquareRoot K] in
theorem abs_tellTale_le (standard : StandardLimits limits) (i : Fin DOF) :
    |tellTale limits q i| ≤ 1000 := by
  by_cases hi : i = 5
  · rw [hi, tellTale_five, abs_of_pos (by norm_num)]
  · have ht := standard.torque i
    have ceiling := maxAllowedTorque_le limits q ht
    have least := neg_le_maxAllowedTorque limits q ht
    rw [tellTale, Function.update_of_ne hi, abs_le]
    constructor <;> linarith

omit [SquareRoot K] in
theorem tellTale_upper (standard : StandardLimits limits) :
    UpperViolated limits q (tellTale limits q) 5 := by
  have ceiling := maxAllowedTorque_le limits q (standard.torque 5)
  rw [UpperViolated, tellTale_five]
  norm_num
  linarith

omit [SquareRoot K] in
theorem tellTale_free (standard : StandardLimits limits) {i : Fin DOF} (hi : i ≠ 5) :
    ¬LimitViolated limits q (tellTale limits q) i := by
  have order := standard.order q i
  have command : tellTale limits q i = maxAllowedTorque limits q i := Function.update_of_ne hi _ _
  have tolerance : (0 : K) ≤ 1e-4 := by norm_num
  rintro (upper | lower)
  · rw [UpperViolated, command] at upper
    exact absurd upper (not_lt.mpr (le_add_of_nonneg_right tolerance))
  · rw [LowerViolated, command] at lower
    exact absurd lower (not_lt.mpr ((sub_le_self _ tolerance).trans order))

theorem filteredTorque_tellTale (standard : StandardLimits limits) (hne : xs ≠ []) :
    filteredTorque limits q eePos xs (tellTale limits q) 5 =
      stdClamp (ridgeMean 2 1000 (maxAllowedTorque limits q 5 + obstacleBound limits eePos xs))
        (-87) 87 := by
  have ht := standard.torque 5
  have upper := tellTale_upper (q := q) standard
  have acts : obstacleActs limits q eePos xs (tellTale limits q) 5 := by
    refine ⟨rfl, ⟨hne, ?_⟩, fun all => tellTale_free standard (by decide : (0 : Fin DOF) ≠ 5) (all 0)⟩
    rcases obstacleBound_cases eePos ht hne with bound | bound <;>
      rw [bound, tellTale_five] <;> norm_num
  rw [filteredTorque_limit_obstacle (standard.order q 5) (Or.inl upper) acts, limitBound,
    if_pos upper, tellTale_five, ht]

omit [SquareRoot K] in
/-- The bound of 0.05 shows in the mean with any ceiling. -/
theorem saturated_average_lt {hi : K} (least : -87 ≤ hi) (most : hi ≤ 87) :
    stdClamp (ridgeMean 2 1000 (hi + 0.05)) (-87) 87 <
      stdClamp (ridgeMean 2 1000 (hi + 87)) (-87) 87 := by
  have low := ridgeMean_mul zero_le_two (1000 : K) (hi + 0.05)
  have high := ridgeMean_mul zero_le_two (1000 : K) (hi + 87)
  norm_num at low high
  calc stdClamp (ridgeMean 2 1000 (hi + 0.05)) (-87) 87
      ≤ ridgeMean 2 1000 (hi + 0.05) := stdClamp_le_of_le (by norm_num) le_rfl (by linarith)
    _ < ridgeMean 2 1000 (hi + 0.05) + 40 := lt_add_of_pos_right _ (by norm_num)
    _ ≤ stdClamp (ridgeMean 2 1000 (hi + 87)) (-87) 87 :=
        le_stdClamp_of_le (by norm_num) (by linarith) (by linarith)

/-- All that the filter can tell of a list of obstacles is the bound of its first one. -/
theorem filteredTorque_same_iff (standard : StandardLimits limits) (hxs : xs ≠ [])
    (hys : ys ≠ []) :
    (∀ u, (∀ i, |u i| ≤ 1000) →
        filteredTorque limits q eePos xs u = filteredTorque limits q eePos ys u) ↔
      obstacleBound limits eePos xs = obstacleBound limits eePos ys := by
  have ht := standard.torque 5
  have least := neg_le_maxAllowedTorque limits q ht
  have most := maxAllowedTorque_le limits q ht
  constructor
  · intro same
    have torque := congrFun (same (tellTale limits q) (abs_tellTale_le standard)) 5
    rw [filteredTorque_tellTale standard hxs, filteredTorque_tellTale standard hys] at torque
    rcases obstacleBound_cases eePos ht hxs with hx | hx <;>
      rcases obstacleBound_cases eePos ht hys with hy | hy
    · rw [hx, hy]
    · rw [hx, hy] at torque
      exact absurd torque (saturated_average_lt least most).ne
    · rw [hx, hy] at torque
      exact absurd torque (saturated_average_lt least most).ne'
    · rw [hx, hy]
  · intro bound u _
    refine filteredTorque_congr rfl rfl rfl ?_ fun _ => bound
    simp only [ObstacleViolated, bound, ne_eq, hxs, hys]

end Told

section Two

/-- An obstacle 10 m above the end effector. -/
noncomputable def farObstacle : Obstacle ℝ := ⟨![.fin 0.45, .fin 0.10, .fin 10.32], .fin 0.05⟩

noncomputable def nearFirst : List (Obstacle ℝ) := daemonObstacles ++ [farObstacle]

noncomputable def farFirst : List (Obstacle ℝ) := farObstacle :: daemonObstacles

theorem nearFirst_perm : nearFirst.Perm farFirst := List.perm_append_singleton _ _

theorem far_not_near : ¬Near daemonLimits daemonState.endEffectorPos farObstacle := by
  have gap : norm3 (fun i => (daemonState.endEffectorPos i : Ieee ℝ) - farObstacle.position i) =
      .fin (SquareRoot.sqrt 100) := by
    have square : (0.45 - 0.45 : ℝ) * (0.45 - 0.45) + (0.10 - 0.10) * (0.10 - 0.10) +
        (0.32 - 10.32) * (0.32 - 10.32) = 100 := by norm_num
    simp only [norm3, daemonState, farObstacle, Matrix.cons_val_zero, Matrix.cons_val_one,
      Matrix.cons_val, Ieee.fin_sub_fin, Ieee.fin_mul_fin, Ieee.fin_add_fin, square]
    exact Ieee.sqrt_fin (by norm_num)
  have away : (1 : ℝ) < SquareRoot.sqrt 100 :=
    (LawfulSquareRoot.lt_sqrt_iff (by norm_num) one_pos).mpr (by norm_num)
  rw [Near, computeObstacleBarrier, gap]
  simp only [daemonLimits, farObstacle, Ieee.fin_add_fin, Ieee.fin_sub_fin, Ieee.fin_lt_fin]
  norm_num
  linarith

theorem filterTorques_perm_iff_two :
    ∃ first second : SafetyOutput ℝ,
      filterTorques daemonLimits
        ⟨fun i => .fin (spikePosition i), fun _ => .fin 0, daemonState.endEffectorPos⟩
        (fun i => .fin (clashCommand i)) nearFirst = .ok first ∧
      filterTorques daemonLimits
        ⟨fun i => .fin (spikePosition i), fun _ => .fin 0, daemonState.endEffectorPos⟩
        (fun i => .fin (clashCommand i)) farFirst = .ok second ∧
      first.barrierMargin = second.barrierMargin ∧
      (((first.safeTorque = second.safeTorque ∧
            first.interventionTriggered = second.interventionTriggered) ∧
          BoundInForce daemonLimits daemonState.endEffectorPos nearFirst first.barrierMargin ∧
          BoundInForce daemonLimits daemonState.endEffectorPos farFirst second.barrierMargin) ↔
        FrontDecides daemonLimits daemonState.endEffectorPos nearFirst ∧
          FrontDecides daemonLimits daemonState.endEffectorPos farFirst) :=
  filterTorques_perm_iff daemonLimits spikePosition (fun _ => 0) clashCommand
    daemonState.endEffectorPos nearFirst_perm

theorem nearFirst_torque : filteredTorque daemonLimits spikePosition daemonState.endEffectorPos
    nearFirst clashCommand 5 ≤ 1 := by
  have standard := (DaemonArm.start (K := ℝ)).standard
  have bound : obstacleBound daemonLimits daemonState.endEffectorPos nearFirst = (0.05 : ℝ) :=
    clash_obstacleBound
  have acts : obstacleActs daemonLimits spikePosition daemonState.endEffectorPos nearFirst
      clashCommand 5 := by
    refine ⟨rfl, ⟨List.cons_ne_nil _ _, ?_⟩, fun all => start_not_limitViolated (all 5)⟩
    rw [bound, clash_command]
    norm_num
  rw [filteredTorque_obstacle start_not_limitViolated acts, bound,
    clash_command]
  refine saturated_le rfl ((ridgeMean_one_le ?_ ?_).trans ?_) ?_ <;> norm_num

theorem farFirst_torque : filteredTorque daemonLimits spikePosition daemonState.endEffectorPos
    farFirst clashCommand = clashCommand :=
  start_accepted (if_neg far_not_near)

theorem farFirst_front : ¬FrontDecides daemonLimits daemonState.endEffectorPos farFirst := by
  have least : (0.02 : ℝ) ≤ 0.08 := by norm_num
  intro decides
  rcases decides ⟨_, List.mem_cons_of_mem _ List.mem_cons_self,
    daemon_obstacle_close least rfl rfl⟩ with ⟨obs, rest, same, near⟩ | weak
  · obtain ⟨rfl, _⟩ := List.cons.inj same
    exact far_not_near near
  · simp only [daemonLimits] at weak
    norm_num at weak

/-- The far obstacle listed first switches the bound for the near one off, and the
arm keeps its 10 Nm towards it. -/
theorem obstacle_order_matters :
    nearFirst.Perm farFirst ∧ ∃ first second : SafetyOutput ℝ,
      filterTorques daemonLimits
        ⟨fun i => .fin (spikePosition i), fun _ => .fin 0, daemonState.endEffectorPos⟩
        (fun i => .fin (clashCommand i)) nearFirst = .ok first ∧
      filterTorques daemonLimits
        ⟨fun i => .fin (spikePosition i), fun _ => .fin 0, daemonState.endEffectorPos⟩
        (fun i => .fin (clashCommand i)) farFirst = .ok second ∧
      first.safeTorque ≠ second.safeTorque ∧
      ¬BoundInForce daemonLimits daemonState.endEffectorPos farFirst second.barrierMargin := by
  have order := (DaemonArm.start (K := ℝ)).standard.order spikePosition
  refine ⟨nearFirst_perm, _, _,
    filterTorques_flagged order (fun _ => 0) clashCommand daemonState.endEffectorPos nearFirst,
    filterTorques_flagged order (fun _ => 0) clashCommand daemonState.endEffectorPos farFirst,
    fun same => ?_, fun force => farFirst_front (boundInForce_iff.mp force)⟩
  have joint := Ieee.fin.inj (congrFun same 5)
  have low := nearFirst_torque
  rw [joint, farFirst_torque, clash_command] at low
  norm_num at low

end Two

end NeuroKinetic
