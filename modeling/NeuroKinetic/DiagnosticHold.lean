import NeuroKinetic.Library.SuffixMaximum
import NeuroKinetic.TelemetrySeqlock

open SuffixMaximum

namespace NeuroKinetic

/-- What the diagnosis reads of the physics twin. -/
structure PhysicsReading (K : Type) where
  maxTempC : Ieee K
  maxStressMpa : Ieee K

inductive Verdict where
  | thermalThrottleRequired
  | structuralStressWarning
  | collisionHazardHold
  | nominal
  deriving DecidableEq, Repr

structure ForensicDiagnosticAgent where
  consecutiveClamps : Int

section Agent

variable {K : Type} [Field K] [LinearOrder K]

/-- A frame counts before any verdict is returned. -/
def ForensicDiagnosticAgent.evaluateSafetyTelemetry (agent : ForensicDiagnosticAgent)
    (telem : TelemetryReading K) (physics : PhysicsReading K) :
    ForensicDiagnosticAgent × Verdict :=
  let clamps := if telem.clamped then agent.consecutiveClamps + 1
    else max 0 (agent.consecutiveClamps - 1)
  let verdict :=
    if .fin 65 < physics.maxTempC then .thermalThrottleRequired
    else if .fin 70 < physics.maxStressMpa then .structuralStressWarning
    else if 25 < clamps then .collisionHazardHold
    else .nominal
  (⟨clamps⟩, verdict)

/-- A fresh agent after a sequence of frames. -/
def ForensicDiagnosticAgent.after (frames : List (TelemetryReading K × PhysicsReading K)) :
    ForensicDiagnosticAgent :=
  frames.foldl (fun agent frame => (agent.evaluateSafetyTelemetry frame.1 frame.2).1) ⟨0⟩

end Agent

section Excess

variable {K : Type}

/-- How many more frames are clamped than unclamped. -/
def clampExcess (frames : List (TelemetryReading K × PhysicsReading K)) : Int :=
  (frames.countP fun frame => frame.1.clamped) - (frames.countP fun frame => !frame.1.clamped)

def clampWeight (frame : TelemetryReading K × PhysicsReading K) : Int :=
  if frame.1.clamped then 1 else -1

theorem clampExcess_eq (frames : List (TelemetryReading K × PhysicsReading K)) :
    clampExcess frames = (frames.map clampWeight).sum := by
  induction frames with
  | nil => rfl
  | cons frame rest ih =>
    rw [List.map_cons, List.sum_cons, ← ih]
    simp only [clampExcess, clampWeight, List.countP_cons]
    cases frame.1.clamped <;> simp <;> omega

variable [Field K] [LinearOrder K]

theorem after_concat (frames : List (TelemetryReading K × PhysicsReading K))
    (frame : TelemetryReading K × PhysicsReading K) :
    ForensicDiagnosticAgent.after (frames ++ [frame]) =
      ((ForensicDiagnosticAgent.after frames).evaluateSafetyTelemetry frame.1 frame.2).1 := by
  rw [ForensicDiagnosticAgent.after, List.foldl_append]
  rfl

/-- The counter goes down by one and not below zero. -/
theorem after_consecutiveClamps (frames : List (TelemetryReading K × PhysicsReading K)) :
    (ForensicDiagnosticAgent.after frames).consecutiveClamps =
      flooredSum (frames.map clampWeight) := by
  induction frames using List.reverseRecOn with
  | nil => rfl
  | append_singleton frames frame ih =>
    have nonneg : 0 ≤ flooredSum (frames.map clampWeight) :=
      (flooredSum_isGreatest _).2 (zero_mem_suffixSums _)
    rw [List.map_append, List.map_singleton, flooredSum_concat, ← ih]
    rw [← ih] at nonneg
    rw [after_concat]
    show (if frame.1.clamped then _ else max 0 _) = _
    rw [clampWeight]
    split
    next => exact (max_eq_right (by omega)).symm
    next => rfl

theorem clampExcess_suffix_iff {frames : List (TelemetryReading K × PhysicsReading K)} {c : Int} :
    (∃ suffix, suffix <:+ frames ∧ c ≤ clampExcess suffix) ↔
      c ≤ (ForensicDiagnosticAgent.after frames).consecutiveClamps := by
  rw [after_consecutiveClamps, le_flooredSum_iff]
  constructor
  · rintro ⟨suffix, inside, h⟩
    exact ⟨suffix.map clampWeight, inside.map _, h.trans_eq (clampExcess_eq suffix)⟩
  · rintro ⟨weights, inside, h⟩
    obtain ⟨suffix, shorter, rfl⟩ := List.suffix_map_iff.mp inside
    exact ⟨suffix, shorter, h.trans_eq (clampExcess_eq suffix).symm⟩

theorem verdict_hold_iff (agent : ForensicDiagnosticAgent) (telem : TelemetryReading K)
    (physics : PhysicsReading K) :
    (agent.evaluateSafetyTelemetry telem physics).2 = .collisionHazardHold ↔
      ¬.fin 65 < physics.maxTempC ∧ ¬.fin 70 < physics.maxStressMpa ∧
        26 ≤ (agent.evaluateSafetyTelemetry telem physics).1.consecutiveClamps := by
  simp only [ForensicDiagnosticAgent.evaluateSafetyTelemetry]
  generalize (if telem.clamped = true then agent.consecutiveClamps + 1
    else max 0 (agent.consecutiveClamps - 1)) = clamps
  split
  next hot => exact iff_of_false (by decide) fun hold => hold.1 hot
  next cool =>
    split
    next stressed => exact iff_of_false (by decide) fun hold => hold.2.1 stressed
    next sound =>
      split
      next many => exact iff_of_true rfl ⟨cool, sound, Int.add_one_le_of_lt many⟩
      next few =>
        refine iff_of_false (by decide) fun hold => few ?_
        have := hold.2.2
        omega

end Excess

/-- When a fresh agent ends on a hold, and what its counter says: the greatest excess
of clamped frames over a suffix. -/
theorem diagnostic_hold_iff {K : Type} [Field K] [LinearOrder K]
    (frames : List (TelemetryReading K × PhysicsReading K))
    (last : TelemetryReading K × PhysicsReading K) :
    (((ForensicDiagnosticAgent.after frames).evaluateSafetyTelemetry last.1 last.2).2 =
        .collisionHazardHold ↔
      ¬.fin 65 < last.2.maxTempC ∧ ¬.fin 70 < last.2.maxStressMpa ∧
        ∃ suffix, suffix <:+ frames ++ [last] ∧ 26 ≤ clampExcess suffix) ∧
      IsGreatest {excess | ∃ suffix, suffix <:+ frames ++ [last] ∧ clampExcess suffix = excess}
        (ForensicDiagnosticAgent.after (frames ++ [last])).consecutiveClamps := by
  constructor
  · rw [verdict_hold_iff, ← after_concat, clampExcess_suffix_iff]
  · constructor
    · obtain ⟨suffix, inside, attained⟩ := clampExcess_suffix_iff.mpr
        (le_refl (ForensicDiagnosticAgent.after (frames ++ [last])).consecutiveClamps)
      refine ⟨suffix, inside, le_antisymm ?_ attained⟩
      exact clampExcess_suffix_iff.mp ⟨suffix, inside, le_rfl⟩
    · rintro _ ⟨suffix, inside, rfl⟩
      exact clampExcess_suffix_iff.mp ⟨suffix, inside, le_rfl⟩

section Unordered

/-- A clamped frame whose temperature the twin could not tell. -/
def unorderedTemperature : TelemetryReading ℚ × PhysicsReading ℚ :=
  (⟨2, 0, zeroTorque, zeroTorque, zeroTorque, .fin 0, true, some 0, false⟩, ⟨.nan, .fin 0⟩)

/-- After 26 such frames the agent holds, though the temperature is not at most 65. -/
theorem diagnostic_hold_unordered :
    ¬(((ForensicDiagnosticAgent.after
          (List.replicate 25 unorderedTemperature)).evaluateSafetyTelemetry
        unorderedTemperature.1 unorderedTemperature.2).2 = .collisionHazardHold ↔
      unorderedTemperature.2.maxTempC ≤ .fin 65 ∧ unorderedTemperature.2.maxStressMpa ≤ .fin 70 ∧
        ∃ suffix, suffix <:+ List.replicate 25 unorderedTemperature ++ [unorderedTemperature] ∧
          26 ≤ clampExcess suffix) := by
  intro claimed
  have hold : ((ForensicDiagnosticAgent.after
      (List.replicate 25 unorderedTemperature)).evaluateSafetyTelemetry
        unorderedTemperature.1 unorderedTemperature.2).2 = .collisionHazardHold := by
    decide +kernel
  exact absurd (claimed.mp hold).1 Bool.false_ne_true

end Unordered

end NeuroKinetic
