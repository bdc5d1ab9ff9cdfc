import NeuroKinetic.DaemonTick

namespace NeuroKinetic

variable {K : Type} [Field K] [LinearOrder K]

/-- Largest speed towards a limit at distance `x` inside the torque ramp. -/
def approachCurve (x : K) : K := 0.44 + 8.5 * x - 43.5 * (x * x)

/-- One joint against one of its limits: distance `x` still to go and speed `v`
towards it. Past the limit, coasting (0.098 s of speed) is what remains. -/
structure Approach (x v : K) : Prop where
  speed : v ≤ 0.8527
  curve : -0.0005 ≤ x → x ≤ 0.1 → v ≤ approachCurve x
  coast : x < -0.0005 → 0.098 * v - x ≤ 0.045
  excursion : -x ≤ 0.045

/-- Torque towards the limit that a tick may apply at distance `x`. -/
structure TorqueTowards (x t : K) : Prop where
  ceiling : t ≤ 87.0001
  ramp : -0.0005 ≤ x → x ≤ 0.1 → t ≤ max (870 * x) 0 + 0.03
  past : x < -0.0005 → t ≤ 0

variable [IsStrictOrderedRing K] {x v t : K}

theorem approachCurve_pos (near : -0.0005 ≤ x) (far : x ≤ 0.1) : 0 < approachCurve x := by
  unfold approachCurve
  norm_num at near far ⊢
  nlinarith

theorem speed_le_approachCurve (near : 0.098 ≤ x) (far : x ≤ 0.1) :
    0.8527 ≤ approachCurve x := by
  unfold approachCurve
  norm_num at near far ⊢
  nlinarith

theorem next_speed_le (hv : v ≤ 0.8527) (ht : t ≤ 87.0001) :
    (v + t / 10 * 0.002) * 0.98 ≤ 0.8527 := by
  norm_num at hv ht ⊢
  linarith

/-- The ramp leaves less speed than the curve asks for: a cubic inequality whose
minimum over the ramp is near 0.04 rad. -/
theorem ramp_cubic (far : x ≤ 0.1) :
    (0.98 * approachCurve x + 0.17052 * x + 0.00000588) * (1.0171484 - 0.174 * x) ≤
      approachCurve x := by
  have gap : 0 ≤ 0.1 - x := sub_nonneg.mpr far
  have touch := mul_nonneg gap (sq_nonneg (x - 0.04))
  unfold approachCurve
  norm_num at touch ⊢
  nlinarith [sq_nonneg x, sq_nonneg (x - 0.004)]

theorem curve_step {w top : K} (hx : x ≤ 0.1) (pos : 0 < w) (speed : w ≤ 0.8527) (hw : w ≤ top)
    (room : top * (1.0171484 - 0.174 * x) ≤ approachCurve x) :
    w ≤ approachCurve (x - w * 0.002) := by
  have square : w * w ≤ 0.8527 * w := mul_le_mul_of_nonneg_right speed pos.le
  have factor : (0 : K) ≤ 1.0171484 - 0.174 * x := by norm_num at hx ⊢; linarith
  have scaled := mul_le_mul_of_nonneg_right hw factor
  unfold approachCurve at room ⊢
  norm_num at square scaled room ⊢
  nlinarith

theorem flat_room (near : -0.0005 ≤ x) (short : x ≤ 0) :
    (0.98 * approachCurve x + 0.00000588) * (1.0171484 - 0.174 * x) ≤ approachCurve x := by
  unfold approachCurve
  norm_num at near ⊢
  nlinarith [mul_nonneg (neg_nonneg.mpr short) (sq_nonneg x)]

/-- Inside the ramp the curve is kept, whichever side of the limit the joint is on. -/
theorem zone_step {w : K} (near : -0.0005 ≤ x) (far : x ≤ 0.1) (hv : v ≤ approachCurve x)
    (ht : t ≤ max (870 * x) 0 + 0.03) (hw : w = (v + t / 10 * 0.002) * 0.98) (pos : 0 < w)
    (speed : w ≤ 0.8527) : w ≤ approachCurve (x - w * 0.002) := by
  rcases le_total 0 x with inside | past
  · rw [max_eq_left (by linarith)] at ht
    have bound : w ≤ 0.98 * approachCurve x + 0.17052 * x + 0.00000588 := by
      norm_num at ht ⊢
      linarith
    exact curve_step far pos speed bound (ramp_cubic far)
  · rw [max_eq_right (by linarith)] at ht
    have bound : w ≤ 0.98 * approachCurve x + 0.00000588 := by
      norm_num at ht ⊢
      linarith
    exact curve_step far pos speed bound (flat_room near past)

/-- A joint that leaves the ramp past its limit has little speed left to coast. -/
theorem zone_coast {w : K} (near : -0.0005 ≤ x) (hv : v ≤ approachCurve x)
    (ht : t ≤ max (870 * x) 0 + 0.03) (hw : w = (v + t / 10 * 0.002) * 0.98) :
    0.1 * w - x ≤ 0.045 := by
  have ramp : max (870 * x) 0 ≤ 870 * x + 0.435 := by
    apply max_le
    · linarith
    · norm_num at near ⊢
      linarith
  have torque : t ≤ 870 * x + 0.435 + 0.03 := by linarith
  unfold approachCurve at hv
  norm_num at near hv torque ⊢
  nlinarith [sq_nonneg x]

/-- The step lemma: a torque within its bound keeps the approach safe. -/
theorem Approach.step (h : Approach x v) (ht : TorqueTowards x t) :
    Approach (x - (v + t / 10 * 0.002) * 0.98 * 0.002) ((v + t / 10 * 0.002) * 0.98) := by
  have speed := next_speed_le h.speed ht.ceiling
  generalize hw : (v + t / 10 * 0.002) * 0.98 = w at speed ⊢
  have coast : x - w * 0.002 < -0.0005 → 0.098 * w - (x - w * 0.002) ≤ 0.045 := by
    intro past
    have sum : 0.098 * w - (x - w * 0.002) = 0.1 * w - x := by ring
    rw [sum]
    by_cases near : -0.0005 ≤ x
    · have far : x ≤ 0.1 := by norm_num at past speed ⊢; linarith
      exact zone_coast near (h.curve near far) (ht.ramp near far) hw.symm
    · have before := h.coast (not_le.mp near)
      have back := ht.past (not_le.mp near)
      norm_num at before hw ⊢
      linarith
  refine ⟨speed, fun near far => ?_, coast, ?_⟩
  · rcases le_or_gt w 0 with back | pos
    · exact back.trans (approachCurve_pos near far).le
    · by_cases outside : 0.1 < x
      · have entry : 0.098 ≤ x - w * 0.002 := by norm_num at outside speed ⊢; linarith
        exact speed.trans (speed_le_approachCurve entry far)
      · have before : -0.0005 ≤ x := by norm_num at near ⊢; linarith
        have inside := not_lt.mp outside
        exact zone_step before inside (h.curve before inside) (ht.ramp before inside) hw.symm pos
          speed
  · rcases le_or_gt w 0 with back | pos
    · have before := h.excursion
      norm_num at back before ⊢
      linarith
    · by_cases past : x - w * 0.002 < -0.0005
      · have remaining := coast past
        norm_num at remaining ⊢
        linarith
      · norm_num at past ⊢
        linarith

theorem Approach.jointStep_upper {m q qDot t : K} (h : Approach (m - q) qDot)
    (ht : TorqueTowards (m - q) t) :
    Approach (m - (jointStep q qDot t).1) (jointStep q qDot t).2 := by
  have gap : m - (jointStep q qDot t).1 = m - q - (qDot + t / 10 * 0.002) * 0.98 * 0.002 := by
    simp only [jointStep]
    ring
  rw [gap]
  exact h.step ht

theorem Approach.jointStep_lower {m q qDot t : K} (h : Approach (q - m) (-qDot))
    (ht : TorqueTowards (q - m) (-t)) :
    Approach ((jointStep q qDot t).1 - m) (-(jointStep q qDot t).2) := by
  have speed : -(jointStep q qDot t).2 = (-qDot + -t / 10 * 0.002) * 0.98 := by
    simp only [jointStep]
    ring
  have gap : (jointStep q qDot t).1 - m = q - m - (-qDot + -t / 10 * 0.002) * 0.98 * 0.002 := by
    simp only [jointStep]
    ring
  rw [gap, speed]
  exact h.step ht

theorem Approach.rest (inside : 0 ≤ x) : Approach x 0 := by
  refine ⟨by norm_num, fun near far => (approachCurve_pos near far).le, fun past => ?_, ?_⟩
  · norm_num at past
    linarith
  · norm_num
    linarith

end NeuroKinetic
