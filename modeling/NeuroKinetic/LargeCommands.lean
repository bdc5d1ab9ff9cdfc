import NeuroKinetic.RowSatisfaction

open RidgeProjection

namespace NeuroKinetic

section Leak

variable {K : Type} [Field K] [LinearOrder K]

/-- A command so far above the ceiling that its millionth, which the ridge lets
through, exceeds the tolerance, under a ceiling that the saturation does not serve. -/
def LeaksAbove (limits : KinematicLimits K) (q u : Fin DOF → K) (i : Fin DOF) : Prop :=
  maxAllowedTorque limits q i < 86.999 ∧ 1000.001 < u i - maxAllowedTorque limits q i

def LeaksBelow (limits : KinematicLimits K) (q u : Fin DOF → K) (i : Fin DOF) : Prop :=
  -86.999 < minAllowedTorque limits q i ∧ 1000.001 < minAllowedTorque limits q i - u i

variable [IsStrictOrderedRing K]

theorem saturate_lt_iff {v c : K} (low : -87 < c) (high : c ≤ 87) :
    stdClamp v (-87) 87 < c ↔ v < c := by
  rw [stdClamp_eq_max_min (by norm_num)]
  constructor
  · intro h
    rcases min_lt_iff.mp (max_lt_iff.mp h).2 with h | h
    · exact absurd h (not_lt.mpr high)
    · exact h
  · exact fun h => max_lt low (min_lt_of_right_lt h)

theorem le_saturated_mean_iff {count u total c : K} (hc : 0 ≤ count) (low : -87 < c)
    (high : c ≤ 87) :
    c ≤ stdClamp (ridgeMean count u total) (-87) 87 ↔ c * (count + 1e-6) ≤ 1e-6 * u + total := by
  have weight : 0 < count + 1e-6 := add_pos_of_nonneg_of_pos hc (by norm_num)
  rw [← not_lt, saturate_lt_iff low high, not_lt]
  exact le_div_iff₀ weight

theorem saturated_above_iff {hi u : K} (least : -87 ≤ hi) :
    stdClamp (ridgeMean 1 u hi) (-87) 87 ≤ hi + 1e-3 ↔ ¬(hi < 86.999 ∧ 1000.001 < u - hi) := by
  by_cases served : hi < 86.999
  · have inside : hi + 1e-3 < 87 := by norm_num at served ⊢; linarith
    rw [saturated_mean_le_iff zero_le_one (by norm_num; linarith) inside, and_iff_right served,
      not_lt]
    norm_num
    constructor <;> intro h <;> linarith
  · refine iff_of_true ((stdClamp_le (by norm_num)).trans ?_) (fun h => served h.1)
    norm_num at served ⊢
    linarith

theorem saturated_below_iff {lo u : K} (most : lo ≤ 87) :
    lo - 1e-3 ≤ stdClamp (ridgeMean 1 u lo) (-87) 87 ↔ ¬(-86.999 < lo ∧ 1000.001 < lo - u) := by
  by_cases served : -86.999 < lo
  · have inside : -87 < lo - 1e-3 := by norm_num at served ⊢; linarith
    rw [le_saturated_mean_iff zero_le_one inside (by norm_num; linarith), and_iff_right served,
      not_lt]
    norm_num
    constructor <;> intro h <;> linarith
  · refine iff_of_true (le_trans ?_ (le_stdClamp (by norm_num))) (fun h => served h.1)
    norm_num at served ⊢
    linarith

variable [SquareRoot K]

/-- Without an obstacle each joint faces its own two rows only. -/
theorem filteredTorque_within_iff {limits : KinematicLimits K} (standard : StandardLimits limits)
    (q u : Fin DOF → K) (eePos : Fin 3 → Ieee K) (i : Fin DOF) :
    minAllowedTorque limits q i - 1e-3 ≤ filteredTorque limits q eePos [] u i ∧
        filteredTorque limits q eePos [] u i ≤ maxAllowedTorque limits q i + 1e-3 ↔
      ¬LeaksAbove limits q u i ∧ ¬LeaksBelow limits q u i := by
  have ht := standard.torque i
  have order := standard.order q i
  have least := neg_le_maxAllowedTorque limits q ht
  have most := minAllowedTorque_le limits q ht
  have noObstacle : ¬obstacleActs limits q eePos [] u i := fun h => h.2.1.1 rfl
  have outcome := filteredTorque_outcome (u := u) order eePos []
  generalize filteredTorque limits q eePos [] u i = t at outcome
  simp only [LeaksAbove, LeaksBelow]
  cases outcome with
  | accepted _ upper lower _ value =>
    have ceiling := not_lt.mp upper
    have floor := not_lt.mp lower
    norm_num at ceiling floor
    have command : minAllowedTorque limits q i - 1e-3 ≤ u i ∧
        u i ≤ maxAllowedTorque limits q i + 1e-3 := by
      constructor <;> norm_num <;> linarith
    refine iff_of_true ?_ ⟨fun h => ?_, fun h => ?_⟩
    · rcases value with value | value
      · rwa [value]
      · rw [value]
        exact ⟨le_saturated ht command.1 (by norm_num; linarith),
          saturated_le ht command.2 (by norm_num; linarith)⟩
    · exact absurd h.2 (by norm_num; linarith)
    · exact absurd h.2 (by norm_num; linarith)
  | ceiling upper _ =>
    have command := upper.ceiling_le
    have mean := bound_le_ridgeMean_one command
    have own : minAllowedTorque limits q i - 1e-3 ≤
        stdClamp (ridgeMean 1 (u i) (maxAllowedTorque limits q i)) (-87) 87 := by
      rw [← ht]
      exact le_saturated ht (by norm_num; linarith) (by norm_num; linarith)
    have floor : ¬1000.001 < minAllowedTorque limits q i - u i := by norm_num; linarith
    rw [ht, and_iff_right own, saturated_above_iff least]
    simp only [floor, and_false, not_false_eq_true, and_true]
  | floor lower _ =>
    have command := lower.le_floor
    have mean := ridgeMean_one_le_bound command
    have own : stdClamp (ridgeMean 1 (u i) (minAllowedTorque limits q i)) (-87) 87 ≤
        maxAllowedTorque limits q i + 1e-3 := by
      rw [← ht]
      exact saturated_le ht (by norm_num; linarith) (by norm_num; linarith)
    have ceiling : ¬1000.001 < u i - maxAllowedTorque limits q i := by norm_num; linarith
    rw [ht, and_iff_left own, saturated_below_iff most]
    simp only [ceiling, and_false, not_false_eq_true, true_and]
  | obstacle _ _ acts => exact absurd acts noObstacle
  | ceilingObstacle _ acts => exact absurd acts noObstacle
  | floorObstacle _ acts => exact absurd acts noObstacle

end Leak

section Spike

/-- A spike of 1e9 Nm on joint 5, which starts 0.09 rad below its upper limit. -/
noncomputable def spikeCommand : Fin DOF → ℝ := Pi.single 5 1e9

noncomputable def spikePosition : Fin DOF → ℝ := ![0, 0.2, 0, -1.2, 0, 2.80, 0]

theorem spike_ceiling : maxAllowedTorque daemonLimits spikePosition 5 = 78.3 := by
  have ramp : stdClamp (((2.89 : ℝ) - 2.80) * 10 * 87) (-87) 87 = 78.3 := by
    rw [stdClamp_of_mem] <;> norm_num
  have joint : spikePosition 5 = 2.80 := rfl
  simp only [maxAllowedTorque, daemonLimits, joint, ramp]
  norm_num

theorem spike_leaks : LeaksAbove daemonLimits spikePosition spikeCommand 5 := by
  have command : spikeCommand 5 = 1e9 := Pi.single_eq_same 5 1e9
  simp only [LeaksAbove, spike_ceiling, command]
  norm_num

end Spike

/-- Which commands the joint limits withstand: all but those that leak past a bound. -/
theorem filterTorques_within_iff {K : Type} [Field K] [LinearOrder K] [IsStrictOrderedRing K]
    [SquareRoot K] [ExactSolver K] {limits : KinematicLimits K} (standard : StandardLimits limits)
    (q qDot u : Fin DOF → K) (eePos : Fin 3 → Ieee K) :
    ∃ (output : SafetyOutput K) (safe : Fin DOF → K),
      filterTorques limits ⟨fun i => .fin (q i), fun i => .fin (qDot i), eePos⟩
        (fun i => .fin (u i)) [] = .ok output ∧
      output.safeTorque = (fun i => .fin (safe i)) ∧
      ((∀ i, minAllowedTorque limits q i - 1e-3 ≤ safe i ∧
          safe i ≤ maxAllowedTorque limits q i + 1e-3) ↔
        ∀ i, ¬LeaksAbove limits q u i ∧ ¬LeaksBelow limits q u i) := by
  obtain ⟨intervened, answer⟩ := filterTorques_eq (standard.order q) qDot u eePos []
  refine ⟨_, filteredTorque limits q eePos [] u, answer, rfl, ?_⟩
  exact forall_congr' (filteredTorque_within_iff standard q u eePos)

theorem filterTorques_within_iff_spike :
    ∃ (output : SafetyOutput ℝ) (safe : Fin DOF → ℝ),
      filterTorques daemonLimits
        ⟨fun i => .fin (spikePosition i), fun _ => .fin 0, daemonState.endEffectorPos⟩
        (fun i => .fin (spikeCommand i)) [] = .ok output ∧
      output.safeTorque = (fun i => .fin (safe i)) ∧
      ((∀ i, minAllowedTorque daemonLimits spikePosition i - 1e-3 ≤ safe i ∧
          safe i ≤ maxAllowedTorque daemonLimits spikePosition i + 1e-3) ↔
        ∀ i, ¬LeaksAbove daemonLimits spikePosition spikeCommand i ∧
          ¬LeaksBelow daemonLimits spikePosition spikeCommand i) :=
  filterTorques_within_iff DaemonArm.start.standard spikePosition (fun _ => 0) spikeCommand
    daemonState.endEffectorPos

/-- The spike drives joint 5 towards its stop with more torque than its ceiling. -/
theorem filterTorques_spike :
    ∃ (output : SafetyOutput ℝ) (safe : Fin DOF → ℝ),
      filterTorques daemonLimits
        ⟨fun i => .fin (spikePosition i), fun _ => .fin 0, daemonState.endEffectorPos⟩
        (fun i => .fin (spikeCommand i)) [] = .ok output ∧
      output.safeTorque = (fun i => .fin (safe i)) ∧
      ¬∀ i, minAllowedTorque daemonLimits spikePosition i - 1e-3 ≤ safe i ∧
        safe i ≤ maxAllowedTorque daemonLimits spikePosition i + 1e-3 := by
  have standard := (DaemonArm.start (K := ℝ)).standard
  obtain ⟨intervened, answer⟩ := filterTorques_eq (standard.order spikePosition) (fun _ => 0)
    spikeCommand daemonState.endEffectorPos []
  refine ⟨_, _, answer, rfl, fun within => ?_⟩
  have quiet := (filteredTorque_within_iff standard spikePosition spikeCommand
    daemonState.endEffectorPos 5).mp (within 5)
  exact quiet.1 spike_leaks

end NeuroKinetic
