import NeuroKinetic.Kernel
import Mathlib.Tactic.FieldSimp
import Mathlib.Tactic.Linarith
import Mathlib.Tactic.NormNum
import Mathlib.Tactic.Ring

namespace NeuroKinetic

variable {K : Type} [Field K]

/-- What numpy documents of `linspace(0.0, 1.0, num)`: that many samples, evenly spaced, from
one end of the interval to the other. -/
structure UnitSamples (linspace : Nat → List K) : Prop where
  count : ∀ num, (linspace num).length = num
  first : ∀ num, 0 < num → (linspace num).head? = some 0
  last : ∀ num, 2 ≤ num → (linspace num).getLast? = some 1
  even : ∀ num, ∃ space, (linspace num).IsChain fun s t => t - s = space

def sCurve (t : K) : K := 3 * t ^ 2 - 2 * t ^ 3

/-- One waypoint; a list with less than seven entries raises an `IndexError`. -/
def interp (start target : List K) (s : K) : Option (List K) :=
  (List.range DOF).mapM fun j => do
    let a ← start[j]?
    let b ← target[j]?
    return a + s * (b - a)

def planTrajectoryChunk (linspace : Nat → List K) (start target : List K) (steps : Nat) :
    Option (List (List K)) :=
  ((linspace steps).map sCurve).mapM (interp start target)

section Curve

variable [LinearOrder K] [IsStrictOrderedRing K] {a b : K}

omit [LinearOrder K] [IsStrictOrderedRing K] in
theorem sCurve_zero : sCurve (0 : K) = 0 := by
  simp [sCurve]

omit [LinearOrder K] [IsStrictOrderedRing K] in
theorem sCurve_one : sCurve (1 : K) = 1 := by
  rw [sCurve]
  ring

omit [LinearOrder K] [IsStrictOrderedRing K] in
/-- The curve is its own mirror image about the middle. -/
theorem sCurve_one_sub (t : K) : sCurve (1 - t) = 1 - sCurve t := by
  rw [sCurve, sCurve]
  ring

omit [LinearOrder K] [IsStrictOrderedRing K] in
theorem sCurve_sub (a b : K) :
    sCurve b - sCurve a = (b - a) * (3 * (a + b) - 2 * (a ^ 2 + a * b + b ^ 2)) := by
  rw [sCurve, sCurve]
  ring

theorem sCurve_mono (ha : 0 ≤ a) (hab : a ≤ b) (hb : b ≤ 1) : sCurve a ≤ sCurve b := by
  have squareA : a ^ 2 ≤ a := by nlinarith [hab.trans hb]
  have squareB : b ^ 2 ≤ b := by nlinarith [ha.trans hab]
  have square : 0 ≤ (a - b) ^ 2 := sq_nonneg _
  have slope : 0 ≤ 3 * (a + b) - 2 * (a ^ 2 + a * b + b ^ 2) := by nlinarith
  rw [← sub_nonneg, sCurve_sub]
  exact mul_nonneg (sub_nonneg.mpr hab) slope

/-- Its slope is three halves at most, in the middle. -/
theorem sCurve_sub_le (hab : a ≤ b) : sCurve b - sCurve a ≤ 1.5 * (b - a) := by
  have middle : 0 ≤ (a - 1 / 2) ^ 2 + (b - 1 / 2) ^ 2 + (a + b - 1) ^ 2 := by positivity
  have slope : 3 * (a + b) - 2 * (a ^ 2 + a * b + b ^ 2) ≤ 1.5 := by
    norm_num
    linarith
  rw [sCurve_sub, mul_comm]
  exact mul_le_mul_of_nonneg_right slope (sub_nonneg.mpr hab)

end Curve

section Grid

variable [LinearOrder K] [IsStrictOrderedRing K] {steps : Nat}

def unitGrid (steps : Nat) : List K :=
  (List.range steps).map fun k : Nat => (k : K) / ((steps - 1 : Nat) : K)

theorem steps_sub_one_pos (h : 2 ≤ steps) : (0 : K) < ((steps - 1 : Nat) : K) := by
  have positive : 0 < steps - 1 := by omega
  exact Nat.cast_pos.mpr positive

theorem mem_unitGrid_bounds (h : 2 ≤ steps) {t : K} (mem : t ∈ unitGrid steps) :
    0 ≤ t ∧ t ≤ 1 := by
  obtain ⟨k, inside, rfl⟩ := List.mem_map.mp mem
  rw [List.mem_range] at inside
  have positive := steps_sub_one_pos (K := K) h
  refine ⟨div_nonneg (Nat.cast_nonneg k) positive.le, (div_le_one positive).mpr ?_⟩
  exact Nat.cast_le.mpr (by omega)

theorem unitGrid_sorted (h : 2 ≤ steps) : (unitGrid (K := K) steps).Pairwise (· ≤ ·) := by
  rw [unitGrid, List.pairwise_map]
  refine List.pairwise_lt_range.imp fun {k n} before => ?_
  exact div_le_div_of_nonneg_right (Nat.cast_le.mpr before.le) (steps_sub_one_pos h).le

omit [LinearOrder K] [IsStrictOrderedRing K] in
theorem unitGrid_spacing (steps : Nat) :
    (unitGrid (K := K) steps).IsChain fun s t => t - s = 1 / ((steps - 1 : Nat) : K) := by
  rw [unitGrid, List.isChain_map, List.isChain_range]
  intro k _
  rw [div_sub_div_same, Nat.cast_succ, add_sub_cancel_left]

/-- The grid seen from its other end. -/
theorem unitGrid_reverse (h : 2 ≤ steps) :
    (unitGrid steps).reverse = (unitGrid (K := K) steps).map (1 - ·) := by
  have apart : ((steps - 1 : Nat) : K) ≠ 0 := (steps_sub_one_pos h).ne'
  apply List.ext_getElem
  · simp
  · intro k inside _
    have below : k < steps := by simpa [unitGrid] using inside
    have mirror : ((steps - 1 - k : Nat) : K) = ((steps - 1 : Nat) : K) - (k : K) :=
      Nat.cast_sub (by omega)
    simp only [unitGrid, List.getElem_reverse, List.getElem_map, List.getElem_range,
      List.length_map, List.length_range, mirror]
    rw [sub_div, div_self apart]

omit [LinearOrder K] [IsStrictOrderedRing K] in
theorem getElem_of_spacing {l : List K} {space : K} (first : l.head? = some 0)
    (even : l.IsChain fun s t => t - s = space) (k : Nat) (inside : k < l.length) :
    l[k] = k * space := by
  induction k with
  | zero =>
    rw [List.head?_eq_getElem?, List.getElem?_eq_getElem inside] at first
    rw [Option.some.inj first, Nat.cast_zero, zero_mul]
  | succ k ih =>
    have apart := List.isChain_iff_getElem.mp even k inside
    rw [sub_eq_iff_eq_add.mp apart, ih (Nat.lt_of_succ_lt inside), Nat.cast_succ, add_mul, one_mul,
      add_comm]

/-- What is documented leaves one grid only. -/
theorem UnitSamples.eq_unitGrid {linspace : Nat → List K} (numpy : UnitSamples linspace)
    (h : 2 ≤ steps) : linspace steps = unitGrid steps := by
  have positive := steps_sub_one_pos (K := K) h
  have count := numpy.count steps
  obtain ⟨space, even⟩ := numpy.even steps
  have entry := getElem_of_spacing (numpy.first steps (by omega)) even
  have final : ((steps - 1 : Nat) : K) * space = 1 := by
    have last := numpy.last steps h
    rw [List.getLast?_eq_getElem?, count, List.getElem?_eq_getElem (by omega)] at last
    rw [← entry (steps - 1) (by omega)]
    exact Option.some.inj last
  apply List.ext_getElem
  · rw [count, unitGrid, List.length_map, List.length_range]
  · intro k inside _
    rw [entry k inside]
    simp only [unitGrid, List.getElem_map, List.getElem_range]
    rw [eq_div_iff positive.ne', mul_right_comm, mul_assoc, final, mul_one]

end Grid

section Waypoints

/-- The value of one joint in a list of joint values. -/
def joint (w : List K) (j : Fin DOF) : K := w.getD j 0

/-- The waypoint at a share of the way. -/
def blend (start target : List K) (s : K) : List K :=
  (List.finRange DOF).map fun j => joint start j + s * (joint target j - joint start j)

theorem joint_blend (start target : List K) (s : K) (j : Fin DOF) :
    joint (blend start target s) j = joint start j + s * (joint target j - joint start j) := by
  simp [joint, blend]

theorem take_eq_joints {w : List K} (h : DOF ≤ w.length) :
    w.take DOF = (List.finRange DOF).map (joint w) := by
  apply List.ext_getElem
  · simpa using h
  · intro k inside _
    have short : k < w.length := by
      rw [List.length_take] at inside
      omega
    simp [joint, short]

theorem blend_zero {start : List K} (target : List K) (h : DOF ≤ start.length) :
    blend start target 0 = start.take DOF := by
  rw [take_eq_joints h, blend]
  simp only [zero_mul, add_zero]

theorem blend_one (start : List K) {target : List K} (h : DOF ≤ target.length) :
    blend start target 1 = target.take DOF := by
  rw [take_eq_joints h, blend]
  simp only [one_mul, add_sub_cancel]

/-- The way back is the same way. -/
theorem blend_reverse (start target : List K) (s : K) :
    blend target start s = blend start target (1 - s) := by
  rw [blend, blend]
  refine List.map_congr_left fun j _ => ?_
  ring

theorem interp_eq {start target : List K} (hs : DOF ≤ start.length) (ht : DOF ≤ target.length)
    (s : K) : interp start target s = some (blend start target s) := by
  have entry : ∀ {w : List K}, DOF ≤ w.length → ∀ j : Fin DOF, w[j.val]? = some (joint w j) := by
    intro w long j
    have inside : j.val < w.length := j.isLt.trans_le long
    simp [joint, inside]
  have each : ∀ j : Fin DOF, (do
      let a ← start[j.val]?
      let b ← target[j.val]?
      return a + s * (b - a)) =
        (pure (joint start j + s * (joint target j - joint start j)) : Option K) := by
    intro j
    rw [entry hs, entry ht]
    rfl
  unfold interp
  rw [← List.map_coe_finRange_eq_range, List.mapM_map]
  simp only [Function.comp_def, each, List.mapM_pure]
  rfl

theorem planTrajectoryChunk_eq (linspace : Nat → List K) {start target : List K}
    (hs : DOF ≤ start.length) (ht : DOF ≤ target.length) (steps : Nat) :
    planTrajectoryChunk linspace start target steps =
      some ((linspace steps).map fun t => blend start target (sCurve t)) := by
  have each : interp start target = fun s => pure (blend start target s) :=
    funext fun s => interp_eq hs ht s
  rw [planTrajectoryChunk, each, List.mapM_pure, List.map_map]
  rfl

end Waypoints

section Chunk

variable [LinearOrder K] [IsStrictOrderedRing K] {start target : List K} {steps : Nat}

/-- What a controller that follows the waypoints relies on. -/
structure WellShaped (start target : List K) (steps : Nat) (chunk : List (List K)) : Prop where
  count : chunk.length = steps
  width : ∀ w ∈ chunk, w.length = DOF
  first : chunk.head? = some (start.take DOF)
  last : chunk.getLast? = some (target.take DOF)
  between : ∀ w ∈ chunk, ∀ j, min (joint start j) (joint target j) ≤ joint w j ∧
    joint w j ≤ max (joint start j) (joint target j)
  monotone : chunk.Pairwise fun w v => ∀ j,
    (joint start j ≤ joint target j → joint w j ≤ joint v j) ∧
    (joint target j ≤ joint start j → joint v j ≤ joint w j)
  spacing : chunk.IsChain fun w v => ∀ j,
    |joint v j - joint w j| ≤ 1.5 * |joint target j - joint start j| / ((steps - 1 : Nat) : K)

theorem blend_between {s : K} (low : 0 ≤ s) (high : s ≤ 1) (j : Fin DOF) :
    min (joint start j) (joint target j) ≤ joint (blend start target s) j ∧
      joint (blend start target s) j ≤ max (joint start j) (joint target j) := by
  rw [joint_blend]
  rcases le_total (joint start j) (joint target j) with up | down
  · rw [min_eq_left up, max_eq_right up]
    constructor <;> nlinarith
  · rw [min_eq_right down, max_eq_left down]
    constructor <;> nlinarith

theorem blend_monotone {s t : K} (h : s ≤ t) (j : Fin DOF) :
    (joint start j ≤ joint target j →
      joint (blend start target s) j ≤ joint (blend start target t) j) ∧
    (joint target j ≤ joint start j →
      joint (blend start target t) j ≤ joint (blend start target s) j) := by
  rw [joint_blend, joint_blend]
  constructor
  · intro up
    have moved := mul_le_mul_of_nonneg_right h (sub_nonneg.mpr up)
    linarith
  · intro down
    have moved := mul_le_mul_of_nonneg_right h (sub_nonneg.mpr down)
    linarith

theorem blend_spacing {s t : K} (low : 0 ≤ s) (ordered : s ≤ t) (high : t ≤ 1) (j : Fin DOF) :
    |joint (blend start target (sCurve t)) j - joint (blend start target (sCurve s)) j| ≤
      1.5 * |joint target j - joint start j| * (t - s) := by
  have gain : joint (blend start target (sCurve t)) j - joint (blend start target (sCurve s)) j =
      (sCurve t - sCurve s) * (joint target j - joint start j) := by
    rw [joint_blend, joint_blend]
    ring
  have forward : 0 ≤ sCurve t - sCurve s := sub_nonneg.mpr (sCurve_mono low ordered high)
  rw [gain, abs_mul, abs_of_nonneg forward, mul_right_comm]
  exact mul_le_mul_of_nonneg_right (sCurve_sub_le ordered) (abs_nonneg _)

theorem planTrajectoryChunk_wellShaped {linspace : Nat → List K} (numpy : UnitSamples linspace)
    (hs : DOF ≤ start.length) (ht : DOF ≤ target.length) (h : 2 ≤ steps) :
    ∃ chunk, planTrajectoryChunk linspace start target steps = some chunk ∧
      WellShaped start target steps chunk ∧
      planTrajectoryChunk linspace target start steps = some chunk.reverse := by
  have grid := numpy.eq_unitGrid h
  have bounds : ∀ t ∈ linspace steps, 0 ≤ t ∧ t ≤ 1 := by
    rw [grid]
    exact fun t mem => mem_unitGrid_bounds h mem
  have inside : ∀ t ∈ linspace steps, 0 ≤ sCurve t ∧ sCurve t ≤ 1 := by
    intro t mem
    obtain ⟨low, high⟩ := bounds t mem
    refine ⟨?_, ?_⟩
    · simpa only [sCurve_zero] using sCurve_mono le_rfl low high
    · simpa only [sCurve_one] using sCurve_mono low high le_rfl
  have sorted : (linspace steps).Pairwise (· ≤ ·) := by
    rw [grid]
    exact unitGrid_sorted h
  have spacing : (linspace steps).IsChain fun s t => t - s = 1 / ((steps - 1 : Nat) : K) := by
    rw [grid]
    exact unitGrid_spacing steps
  refine ⟨_, planTrajectoryChunk_eq linspace hs ht steps, ?_, ?_⟩
  · constructor
    case count => simp [numpy.count]
    case width => simp [blend]
    case first =>
      simp [List.head?_map, numpy.first steps (by omega), sCurve_zero, blend_zero target hs]
    case last => simp [List.getLast?_map, numpy.last steps h, sCurve_one, blend_one start ht]
    case between =>
      intro w mem j
      obtain ⟨t, on, rfl⟩ := List.mem_map.mp mem
      exact blend_between (inside t on).1 (inside t on).2 j
    case monotone =>
      rw [List.pairwise_map]
      refine sorted.imp_of_mem fun {s t} first second ordered j => ?_
      exact blend_monotone (sCurve_mono (bounds s first).1 ordered (bounds t second).2) j
    case spacing =>
      have positive := steps_sub_one_pos (K := K) h
      rw [List.isChain_map]
      refine spacing.imp_of_mem_imp fun s t first second apart j => ?_
      have ordered : s ≤ t := by
        rw [← sub_nonneg, apart]
        positivity
      calc |joint (blend start target (sCurve t)) j - joint (blend start target (sCurve s)) j|
          ≤ 1.5 * |joint target j - joint start j| * (t - s) :=
            blend_spacing (bounds s first).1 ordered (bounds t second).2 j
        _ = 1.5 * |joint target j - joint start j| / ((steps - 1 : Nat) : K) := by
          rw [apart, mul_one_div]
  · rw [planTrajectoryChunk_eq linspace ht hs, ← List.map_reverse, grid, unitGrid_reverse h,
      List.map_map]
    congr 1
    refine List.map_congr_left fun t _ => ?_
    rw [Function.comp_apply, sCurve_one_sub, blend_reverse]

/-- A list of samples for every number of them; numpy gives a lone sample the first end. -/
theorem unitGrid_samples : UnitSamples (unitGrid (K := K)) := by
  refine ⟨fun num => ?_, fun num some => ?_, fun num two => ?_, fun num => ?_⟩
  · rw [unitGrid, List.length_map, List.length_range]
  · rw [unitGrid, List.head?_map, List.head?_range]
    simp [some.ne']
  · have apart : ((num - 1 : Nat) : K) ≠ 0 := (steps_sub_one_pos two).ne'
    rw [unitGrid, List.getLast?_map, List.getLast?_range]
    simp [show num ≠ 0 by omega, div_self apart]
  · exact ⟨_, unitGrid_spacing num⟩

/-- Three waypoints of one joint's quarter turn, the other joints at rest. -/
theorem planTrajectoryChunk_wellShaped_three :
    ∃ chunk, planTrajectoryChunk (K := ℚ) unitGrid [0, 0, 0, 0, 0, 0, 0] [0, 0, 0, 0, 0, 1.5, 0] 3 =
        some chunk ∧
      WellShaped [0, 0, 0, 0, 0, 0, 0] [0, 0, 0, 0, 0, 1.5, 0] 3 chunk ∧
      planTrajectoryChunk (K := ℚ) unitGrid [0, 0, 0, 0, 0, 1.5, 0] [0, 0, 0, 0, 0, 0, 0] 3 =
        some chunk.reverse :=
  planTrajectoryChunk_wellShaped unitGrid_samples (by decide) (by decide) (by decide)

end Chunk

end NeuroKinetic
