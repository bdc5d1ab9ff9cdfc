import NeuroKinetic.Daemon

namespace NeuroKinetic

variable {K : Type}

/-- The frame a tick keeps: first sequence even and nonzero, and read twice alike. -/
def CommandRead.Accepted (r : CommandRead K) : Prop :=
  r.cmdSeq1 % 2 = 0 ∧ r.cmdSeq1 ≠ 0 ∧ r.cmdSeq1 = r.cmdSeq2

instance (r : CommandRead K) : Decidable r.Accepted := inferInstanceAs (Decidable (_ ∧ _))

variable [Field K]

theorem ingestCommand_accepted {r : CommandRead K} (h : r.Accepted) :
    ingestCommand r = ⟨r.nominalTorques, r.commandFlags, r.obstacleSafetyMargin⟩ := by
  have same : ¬r.cmdSeq1 ≠ r.cmdSeq2 := not_not.mpr h.2.2
  simp only [ingestCommand, if_pos (And.intro h.1 h.2.1), if_neg same]

theorem ingestCommand_rejected {r : CommandRead K} (h : ¬r.Accepted) :
    (ingestCommand r).nominalTorque = zeroTorque := by
  by_cases first : r.cmdSeq1 % 2 = 0 ∧ r.cmdSeq1 ≠ 0
  · have torn : r.cmdSeq1 ≠ r.cmdSeq2 := fun same => h ⟨first.1, first.2, same⟩
    simp only [ingestCommand, if_pos first, if_pos torn]
  · simp only [ingestCommand, if_neg first]

theorem ingestCommand_torques (r : CommandRead K) (torques : Fin DOF → Ieee K) :
    (ingestCommand { r with nominalTorques := torques }).flags = (ingestCommand r).flags ∧
      (ingestCommand { r with nominalTorques := torques }).dynamicMargin =
        (ingestCommand r).dynamicMargin := by
  by_cases h : r.cmdSeq1 % 2 = 0 ∧ r.cmdSeq1 ≠ 0
  · simp only [ingestCommand, if_pos h, and_self]
  · simp only [ingestCommand, if_neg h, and_self]

@[simp] theorem defaultMargin_ne_nan : (defaultMargin : Ieee K) ≠ .nan := nofun

theorem ingestCommand_margin (r : CommandRead K) :
    (ingestCommand r).dynamicMargin = r.obstacleSafetyMargin ∨
      (ingestCommand r).dynamicMargin = defaultMargin := by
  by_cases h : r.cmdSeq1 % 2 = 0 ∧ r.cmdSeq1 ≠ 0
  · exact Or.inl (by simp only [ingestCommand, if_pos h])
  · exact Or.inr (by simp only [ingestCommand, if_neg h])

variable [LinearOrder K]

theorem tickCommand_override {limits : KinematicLimits K} {w : Watchdog} {input : TickInput K}
    (h : (w.evaluate input.heartbeatPython input.tickStart).tripped = true ∨
      (ingestCommand input.command).flags &&& 2 ≠ 0) :
    (tickCommand limits w input).nominalTorque = zeroTorque := by
  simp only [tickCommand, if_pos h]

theorem tickCommand_rejected {limits : KinematicLimits K} {w : Watchdog} {input : TickInput K}
    (h : ¬input.command.Accepted) : (tickCommand limits w input).nominalTorque = zeroTorque := by
  simp only [tickCommand, ingestCommand_rejected h, ite_self]

theorem tickCommand_kept {limits : KinematicLimits K} {w : Watchdog} {input : TickInput K}
    (h : input.command.Accepted)
    (watchdog : (w.evaluate input.heartbeatPython input.tickStart).tripped = false)
    (flags : input.command.commandFlags &&& 2 = 0) :
    (tickCommand limits w input).nominalTorque = input.command.nominalTorques := by
  simp [tickCommand, ingestCommand_accepted h, watchdog, flags]

theorem tickCommand_cases (limits : KinematicLimits K) (w : Watchdog) (input : TickInput K) :
    (tickCommand limits w input).nominalTorque = zeroTorque ∨
      (tickCommand limits w input).nominalTorque = input.command.nominalTorques := by
  by_cases accepted : input.command.Accepted
  · by_cases override : (w.evaluate input.heartbeatPython input.tickStart).tripped = true ∨
        (ingestCommand input.command).flags &&& 2 ≠ 0
    · exact Or.inl (tickCommand_override override)
    · have passed : (tickCommand limits w input).nominalTorque =
          (ingestCommand input.command).nominalTorque := if_neg override
      exact Or.inr (by rw [passed, ingestCommand_accepted accepted])
  · exact Or.inl (tickCommand_rejected accepted)

end NeuroKinetic
