import NeuroKinetic.TripRecovery

open RidgeProjection

namespace NeuroKinetic

variable {ι K : Type}

/-- Tick times never decrease and two ticks are at most a period apart; a call
comes no earlier than the tick before it. The first time is that of the last tick. -/
def Paced (period : Int) : Int → List (Event ι K) → Prop
  | _, [] => True
  | last, .call _ time _ :: rest => last ≤ time ∧ Paced period last rest
  | last, .tick now :: rest => last ≤ now ∧ now ≤ last + period ∧ Paced period now rest

instance Paced.decidable : (period last : Int) → (events : List (Event ι K)) →
    Decidable (Paced period last events)
  | _, _, [] => isTrue trivial
  | period, last, .call _ time _ :: rest =>
    haveI := Paced.decidable period last rest
    inferInstanceAs (Decidable (last ≤ time ∧ Paced period last rest))
  | period, last, .tick now :: rest =>
    haveI := Paced.decidable period now rest
    inferInstanceAs (Decidable (last ≤ now ∧ now ≤ last + period ∧ Paced period now rest))

def CalledSince (events : List (Event ι K)) (time : Int) : Prop :=
  ∃ client called call, .call client called call ∈ events ∧ time ≤ called

theorem CalledSince.append {events : List (Event ι K)} {time : Int} (h : CalledSince events time)
    (later : List (Event ι K)) : CalledSince (events ++ later) time := by
  obtain ⟨client, called, call, member, since⟩ := h
  exact ⟨client, called, call, List.mem_append_left _ member, since⟩

variable [Field K]

/-- What links heartbeat, watchdog and the calls so far, after a tick at `last`. -/
structure Attended (period last : Int) (past : List (Event ι K)) (s : System ι K) : Prop where
  written : ClientWritten s.shm
  pending : s.shm.heartbeatPython ≠ s.daemon.watchdog.lastPythonHeartbeat → CalledSince past last
  changed : s.daemon.watchdog.lastPythonHeartbeat ≠ 0 →
    CalledSince past (s.daemon.watchdog.lastHeartbeatChangeTime - period)

theorem System.start_attended (period now : Int) :
    Attended period now [] (System.start now : System ι K) := by
  refine ⟨System.start_clientWritten now, fun h => absurd rfl h, fun h => absurd rfl h⟩

variable [LinearOrder K]

theorem Attended.nominalTorque {period last now : Int} {past : List (Event ι K)}
    {s : System ι K} (h : Attended period last past s) (soon : now ≤ last + period)
    (silent : ∀ client called call, .call client called call ∈ past →
      called + 151000000 + period ≤ now) : s.nominalTorque now = zeroTorque := by
  by_cases command : s.shm.command.seq = 0
  · exact tickCommand_rejected (fun accepted => accepted.2.1 command)
  · have connected := h.written.connected command
    have same : s.shm.heartbeatPython = s.daemon.watchdog.lastPythonHeartbeat := by
      by_contra stale
      obtain ⟨client, called, call, member, since⟩ := h.pending stale
      have quiet := silent client called call member
      omega
    obtain ⟨client, called, call, member, since⟩ := h.changed (same ▸ connected)
    have quiet := silent client called call member
    apply tickCommand_override
    left
    change (s.daemon.watchdog.evaluate s.shm.heartbeatPython now).tripped = true
    rw [same] at connected ⊢
    rw [Watchdog.evaluate_same, Bool.or_eq_true, decide_eq_true_eq]
    exact Or.inr ⟨connected, by omega⟩

variable [SquareRoot K] [ExactSolver K] [DecidableEq ι]
  (packFloat : Ieee K → Option (Ieee K)) (obstacles : List (Obstacle K))

theorem Attended.call {period last time : Int} {past : List (Event ι K)} {s : System ι K}
    (h : Attended period last past s) (client : ι) (call : ClientCall K) (since : last ≤ time) :
    Attended period last (past ++ [.call client time call])
      (s.step packFloat obstacles (.call client time call)) := by
  refine ⟨h.written.step packFloat obstacles _, fun _ => ?_, fun connected => ?_⟩
  · exact ⟨client, time, call, List.mem_append_right _ List.mem_cons_self, since⟩
  · exact (h.changed connected).append _

theorem Attended.tick {period last now : Int} {past : List (Event ι K)} {s : System ι K}
    (h : Attended period last past s) (soon : now ≤ last + period) :
    Attended period now (past ++ [.tick now]) (s.step packFloat obstacles (.tick now)) := by
  have watchdog := s.step_tick_watchdog packFloat obstacles now
  refine ⟨h.written, fun stale => ?_, fun connected => ?_⟩
  · rw [watchdog, Watchdog.evaluate_heartbeat] at stale
    exact absurd rfl stale
  · by_cases same : s.shm.heartbeatPython = s.daemon.watchdog.lastPythonHeartbeat
    · rw [same, Watchdog.evaluate_same] at watchdog
      rw [watchdog] at connected ⊢
      exact (h.changed connected).append _
    · rw [Watchdog.evaluate_changed same] at watchdog
      rw [watchdog]
      obtain ⟨client, called, call, member, since⟩ := h.pending same
      exact ⟨client, called, call, List.mem_append_left _ member, by simp only; omega⟩

theorem Attended.run {period last now : Int} {past events : List (Event ι K)} {s : System ι K}
    (h : Attended period last past s) (paced : Paced period last (events ++ [.tick now])) :
    ∃ last', now ≤ last' + period ∧
      Attended period last' (past ++ events) (s.run packFloat obstacles events) := by
  induction events generalizing last past s with
  | nil =>
    rw [List.append_nil]
    exact ⟨last, paced.2.1, h⟩
  | cons event rest ih =>
    rw [List.append_cons past event rest]
    cases event with
    | call client time call => exact ih (h.call packFloat obstacles client call paced.1) paced.2
    | tick tickStart => exact ih (h.tick packFloat obstacles paced.2.1) paced.2.2

/-- Dead-man guarantee: once every client has been silent for 151 ms and a tick
period, no command reaches the filter. -/
theorem dead_man_stops_command (start period now : Int) (events : List (Event ι K))
    (paced : Paced period start (events ++ [.tick now]))
    (silent : ∀ client called call, .call client called call ∈ events →
      called + 151000000 + period ≤ now) :
    ((System.start start).run packFloat obstacles events).nominalTorque now = zeroTorque := by
  obtain ⟨last, soon, attended⟩ :=
    (System.start_attended period start).run packFloat obstacles paced
  exact attended.nominalTorque soon silent

theorem silentEvents_last (client : Unit) (called : Int) (call : ClientCall ℝ)
    (member : .call client called call ∈ silentEvents) : called = 0 := by
  rcases List.mem_cons.mp member with dispatch | later
  · cases dispatch
    rfl
  · obtain ⟨k, _, hk⟩ := List.mem_map.mp later
    cases hk

theorem dead_man_stops_silent :
    ((System.start 0).run some daemonObstacles
      (silentEvents ++ [.tick 152000000])).nominalTorque 154000000 = zeroTorque := by
  apply dead_man_stops_command some daemonObstacles 0 2000000
  · decide +kernel
  · intro client called call member
    have dispatch := silentEvents_last client called call (by simpa using member)
    rw [dispatch]
    norm_num

/-- A client that reads telemetry after each of the daemon's ticks. -/
def readerEvents : List (Event Bool ℝ) :=
  (List.range 100).flatMap (fun k =>
    [.tick (2000000 * k), .call false (2000000 * k + 1000000) .readTelemetry])

def commandEvent : Event Bool ℝ :=
  .call true 0 (.dispatchVlaTorque (.fin 5 :: List.replicate 6 (.fin 0)) (.fin 0.08) (.fin 15))

def attendedEvents : List (Event Bool ℝ) := commandEvent :: readerEvents

theorem readerEvents_call {client : Bool} {called : Int} {call : ClientCall ℝ}
    (member : .call client called call ∈ readerEvents) : client = false ∧ call = .readTelemetry := by
  obtain ⟨k, _, hk⟩ := List.mem_flatMap.mp member
  simp only [List.mem_cons, reduceCtorEq, Event.call.injEq, false_or, List.not_mem_nil,
    or_false] at hk
  exact ⟨hk.1, hk.2.2⟩

theorem attendedEvents_command :
    ((System.start 0).run some daemonObstacles attendedEvents).shm.command =
      ((System.start 0).step some daemonObstacles commandEvent).shm.command := by
  rw [attendedEvents, System.run_cons]
  apply System.run_command
  intro client time torques margin gamma member
  cases (readerEvents_call member).2

theorem attendedEvents_torque :
    ((System.start 0).run some daemonObstacles attendedEvents).nominalTorque 200000000 0 =
      .fin 5 := by
  have written := (System.start_clientWritten 0).run some daemonObstacles attendedEvents
  have changed : ((System.start 0).run some daemonObstacles attendedEvents).shm.heartbeatPython ≠
      ((System.start 0).run some daemonObstacles
        attendedEvents).daemon.watchdog.lastPythonHeartbeat := by decide +kernel
  have seq : ((System.start 0).run some daemonObstacles attendedEvents).shm.command.seq ≠ 0 := by
    decide +kernel
  rw [System.nominalTorque_rearmed written changed seq, attendedEvents_command]
  rfl

/-- The reader's heartbeats hide that the commanding client is gone. -/
theorem crashed_commander_unnoticed :
    Paced 2000000 0 (attendedEvents ++ [.tick 200000000]) ∧
      (∀ called call, .call true called call ∈ attendedEvents →
        called + 151000000 + 2000000 ≤ 200000000) ∧
      ((System.start 0).run some daemonObstacles attendedEvents).shm.command.seq = 2 ∧
      ((System.start 0).run some daemonObstacles attendedEvents).nominalTorque 200000000 0 =
        .fin 5 ∧
      ((System.start 0).run some daemonObstacles attendedEvents).nominalTorque 200000000 ≠
        zeroTorque := by
  refine ⟨by decide +kernel, fun called call member => ?_, by decide +kernel,
    attendedEvents_torque, fun zero => ?_⟩
  · rcases List.mem_cons.mp member with dispatch | later
    · cases dispatch
      norm_num
    · cases (readerEvents_call later).1
  · have torque := attendedEvents_torque
    rw [zero] at torque
    exact absurd (Ieee.fin.inj torque) (by norm_num)

end NeuroKinetic
