import NeuroKinetic.SystemRuns

open RidgeProjection

namespace NeuroKinetic

variable {ι K : Type} [Field K] [LinearOrder K]

theorem System.nominalTorque_tripped {s : System ι K} {now : Int}
    (tripped : s.daemon.watchdog.tripped = true)
    (same : s.shm.heartbeatPython = s.daemon.watchdog.lastPythonHeartbeat) :
    s.nominalTorque now = zeroTorque := by
  apply tickCommand_override
  left
  change (s.daemon.watchdog.evaluate s.shm.heartbeatPython now).tripped = true
  rw [same, Watchdog.evaluate_same, tripped, Bool.true_or]

/-- A changed heartbeat hands the slot's torques to the filter again. -/
theorem System.nominalTorque_rearmed {s : System ι K} {now : Int} (written : ClientWritten s.shm)
    (changed : s.shm.heartbeatPython ≠ s.daemon.watchdog.lastPythonHeartbeat)
    (command : s.shm.command.seq ≠ 0) :
    s.nominalTorque now = s.shm.command.nominalTorques := by
  apply tickCommand_kept
  · exact ⟨written.even, command, rfl⟩
  · exact congrArg Watchdog.tripped (Watchdog.evaluate_changed changed)
  · exact written.noStop

variable [SquareRoot K] [ExactSolver K] [DecidableEq ι]
  (packFloat : Ieee K → Option (Ieee K)) (obstacles : List (Obstacle K))

theorem System.run_tripped {s : System ι K} {events : List (Event ι K)}
    (tripped : s.daemon.watchdog.tripped = true)
    (same : ∀ heartbeat ∈ s.heartbeatsObserved packFloat obstacles events,
      heartbeat = s.daemon.watchdog.lastPythonHeartbeat) :
    (s.run packFloat obstacles events).daemon.watchdog.tripped = true ∧
      (s.run packFloat obstacles events).daemon.watchdog.lastPythonHeartbeat =
        s.daemon.watchdog.lastPythonHeartbeat := by
  induction events generalizing s with
  | nil => exact ⟨tripped, rfl⟩
  | cons event rest ih =>
    cases event with
    | call client time call => exact ih tripped same
    | tick tickStart =>
      have unchanged := same _ List.mem_cons_self
      have watchdog := s.step_tick_watchdog packFloat obstacles tickStart
      rw [unchanged, Watchdog.evaluate_same, tripped, Bool.true_or] at watchdog
      have next := ih (s := s.step packFloat obstacles (.tick tickStart)) (by rw [watchdog])
        (by rw [watchdog]; exact fun h member => same h (List.mem_cons_of_mem _ member))
      rw [watchdog] at next
      exact next

theorem System.heartbeatsObserved_append (s : System ι K) (events later : List (Event ι K)) :
    s.heartbeatsObserved packFloat obstacles (events ++ later) =
      s.heartbeatsObserved packFloat obstacles events ++
        (s.run packFloat obstacles events).heartbeatsObserved packFloat obstacles later := by
  induction events generalizing s with
  | nil => rfl
  | cons event rest ih =>
    cases event with
    | call client time call => exact ih _
    | tick tickStart =>
      exact congrArg (s.shm.heartbeatPython :: ·) (ih _)

theorem System.run_shm {s : System ι K} {events : List (Event ι K)}
    (noCall : ∀ client time call, Event.call client time call ∉ events) :
    (s.run packFloat obstacles events).shm = s.shm ∧
      ∀ heartbeat ∈ s.heartbeatsObserved packFloat obstacles events,
        heartbeat = s.shm.heartbeatPython := by
  induction events generalizing s with
  | nil => exact ⟨rfl, by simp [System.heartbeatsObserved]⟩
  | cons event rest ih =>
    cases event with
    | call client time call => exact absurd List.mem_cons_self (noCall client time call)
    | tick tickStart =>
      obtain ⟨shm, observed⟩ := ih (s := s.step packFloat obstacles (.tick tickStart))
        (fun client time call member => noCall client time call (List.mem_cons_of_mem _ member))
      refine ⟨shm, fun heartbeat member => ?_⟩
      rcases List.mem_cons.mp member with rfl | member
      · rfl
      · exact observed heartbeat member

/-- One client commands 5 Nm on joint 0 and falls silent while the daemon ticks on. -/
def silentEvents : List (Event Unit ℝ) :=
  .call () 0 (.dispatchVlaTorque (.fin 5 :: List.replicate 6 (.fin 0)) (.fin 0.08) (.fin 15)) ::
    (List.range 76).map (fun k => .tick (2000000 * k))

theorem silentEvents_trip :
    (((System.start 0).run some daemonObstacles silentEvents).step some daemonObstacles
      (.tick 152000000)).daemon.watchdog.tripped = true := by
  decide +kernel

/-- A trip holds until a tick observes a changed heartbeat, which takes a call;
such a tick applies the slot's command again. -/
theorem trip_holds_until_heartbeat (start : Int) (before later : List (Event ι K)) (trip now : Int)
    (tripped : (((System.start start).run packFloat obstacles before).step packFloat obstacles
      (.tick trip)).daemon.watchdog.tripped = true) :
    let atTrip := ((System.start start).run packFloat obstacles before).step packFloat obstacles
      (.tick trip)
    let atNow := atTrip.run packFloat obstacles later
    ((∀ heartbeat ∈ atTrip.heartbeatsObserved packFloat obstacles (later ++ [.tick now]),
        heartbeat = atTrip.shm.heartbeatPython) → atNow.nominalTorque now = zeroTorque) ∧
    (atNow.nominalTorque now ≠ zeroTorque → ∃ client time call, .call client time call ∈ later) ∧
    (atNow.shm.heartbeatPython ≠ atNow.daemon.watchdog.lastPythonHeartbeat →
      atNow.shm.command.seq ≠ 0 → atNow.nominalTorque now = atNow.shm.command.nominalTorques) := by
  intro atTrip atNow
  have observed : atTrip.daemon.watchdog.lastPythonHeartbeat = atTrip.shm.heartbeatPython :=
    Watchdog.evaluate_heartbeat _ _ _
  have holds : (∀ heartbeat ∈ atTrip.heartbeatsObserved packFloat obstacles (later ++ [.tick now]),
      heartbeat = atTrip.shm.heartbeatPython) → atNow.nominalTorque now = zeroTorque := by
    intro same
    rw [System.heartbeatsObserved_append] at same
    have flag := System.run_tripped packFloat obstacles tripped
      (fun h member => (same h (List.mem_append_left _ member)).trans observed.symm)
    have last := same atNow.shm.heartbeatPython (List.mem_append_right _ List.mem_cons_self)
    apply System.nominalTorque_tripped flag.1
    rw [flag.2, observed]
    exact last
  refine ⟨holds, fun armed => ?_, fun changed command => ?_⟩
  · by_contra silent
    have noCall : ∀ client time call, Event.call client time call ∉ later ++ [.tick now] := by
      intro client time call member
      rcases List.mem_append.mp member with member | member
      · exact silent ⟨client, time, call, member⟩
      · simp at member
    exact armed (holds (System.run_shm packFloat obstacles noCall).2)
  · have written := (System.start_clientWritten start).run packFloat obstacles
      (before ++ .tick trip :: later)
    rw [System.run_append] at written
    exact System.nominalTorque_rearmed written changed command

theorem trip_holds_silent :
    ((((System.start 0).run some daemonObstacles silentEvents).step some daemonObstacles
      (.tick 152000000)).run some daemonObstacles [.tick 154000000]).nominalTorque 156000000 =
        zeroTorque :=
  (trip_holds_until_heartbeat some daemonObstacles 0 silentEvents [.tick 154000000] 152000000 156000000
    silentEvents_trip).1 (by decide +kernel)

/-- Reading telemetry is enough to apply the old command again. -/
theorem stale_command_rearmed :
    let atTrip := ((System.start 0).run some daemonObstacles silentEvents).step some daemonObstacles
      (.tick 152000000)
    let atRead := atTrip.step some daemonObstacles (.call () 153000000 .readTelemetry)
    atTrip.daemon.watchdog.tripped = true ∧
      atRead.shm.command.seq = atTrip.shm.command.seq ∧
      atRead.nominalTorque 154000000 0 = .fin 5 ∧
      atRead.nominalTorque 154000000 ≠ zeroTorque := by
  intro atTrip atRead
  have written := (System.start_clientWritten 0).run some daemonObstacles
    (silentEvents ++ [.tick 152000000, .call () 153000000 .readTelemetry])
  rw [System.run_append] at written
  have kept : atRead.nominalTorque 154000000 = atRead.shm.command.nominalTorques :=
    System.nominalTorque_rearmed written (by decide +kernel) (by decide +kernel)
  have torque : atRead.nominalTorque 154000000 0 = .fin 5 := by
    rw [kept]
    rfl
  refine ⟨silentEvents_trip, by decide +kernel, torque, fun zero => ?_⟩
  rw [zero] at torque
  exact absurd (Ieee.fin.inj torque) (by norm_num)

end NeuroKinetic
