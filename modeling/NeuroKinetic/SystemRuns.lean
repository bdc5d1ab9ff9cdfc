import NeuroKinetic.ShmClient
import NeuroKinetic.WatchdogRuns

open RidgeProjection

namespace NeuroKinetic

/-- The segment, every client's counter and the daemon behind it. -/
structure System (ι K : Type) where
  shm : SharedMemory K
  heartbeatCounter : ι → Nat
  daemon : DaemonState K

/-- Calls and ticks that do not overlap. -/
inductive Event (ι K : Type) where
  | call (client : ι) (time : Int) (call : ClientCall K)
  | tick (tickStart : Int)

section Step

variable {ι K : Type} [Field K]

def System.start (now : Int) : System ι K :=
  ⟨⟨0, initialCommand⟩, fun _ => 0, daemonStart now⟩

theorem System.start_clientWritten (now : Int) :
    ClientWritten (System.start now : System ι K).shm :=
  ⟨rfl, by simp [System.start, initialCommand], fun h => absurd rfl h⟩

def System.input (s : System ι K) (tickStart : Int) : TickInput K :=
  ⟨tickStart, s.shm.heartbeatPython, s.shm.command.read⟩

variable [LinearOrder K]

/-- What a tick at this moment hands to the filter. -/
def System.nominalTorque (s : System ι K) (tickStart : Int) : Fin DOF → Ieee K :=
  (tickCommand s.daemon.limits s.daemon.watchdog (s.input tickStart)).nominalTorque

variable [SquareRoot K] [ExactSolver K]

variable [DecidableEq ι] (packFloat : Ieee K → Option (Ieee K)) (obstacles : List (Obstacle K))

def System.step (s : System ι K) : Event ι K → System ι K
  | .call client _ call =>
    let after := call.run packFloat ⟨s.heartbeatCounter client, s.shm⟩
    { s with
      shm := after.buf
      heartbeatCounter := Function.update s.heartbeatCounter client after.heartbeatCounter }
  | .tick tickStart => { s with daemon := (tick obstacles s.daemon (s.input tickStart)).1 }

def System.run (s : System ι K) (events : List (Event ι K)) : System ι K :=
  events.foldl (fun s event => s.step packFloat obstacles event) s

def System.heartbeatsObserved (s : System ι K) : List (Event ι K) → List Nat
  | [] => []
  | .call client time call :: rest =>
    System.heartbeatsObserved (s.step packFloat obstacles (.call client time call)) rest
  | .tick tickStart :: rest =>
    s.shm.heartbeatPython ::
      System.heartbeatsObserved (s.step packFloat obstacles (.tick tickStart)) rest

end Step

section Runs

variable {ι K : Type} [Field K] [LinearOrder K] [SquareRoot K] [ExactSolver K] [DecidableEq ι]
  (packFloat : Ieee K → Option (Ieee K)) (obstacles : List (Obstacle K))

theorem System.run_cons (s : System ι K) (event : Event ι K) (later : List (Event ι K)) :
    s.run packFloat obstacles (event :: later) =
      (s.step packFloat obstacles event).run packFloat obstacles later := rfl

theorem System.run_append (s : System ι K) (events later : List (Event ι K)) :
    s.run packFloat obstacles (events ++ later) =
      (s.run packFloat obstacles events).run packFloat obstacles later :=
  List.foldl_append

theorem System.step_tick_watchdog (s : System ι K) (tickStart : Int) :
    (s.step packFloat obstacles (.tick tickStart)).daemon.watchdog =
      s.daemon.watchdog.evaluate s.shm.heartbeatPython tickStart := rfl

theorem ClientWritten.step {s : System ι K} (h : ClientWritten s.shm) (event : Event ι K) :
    ClientWritten (s.step packFloat obstacles event).shm := by
  cases event with
  | call client time call => exact h.call (call.run_effect packFloat ⟨s.heartbeatCounter client, s.shm⟩)
  | tick tickStart => exact h

theorem ClientWritten.run {s : System ι K} (h : ClientWritten s.shm) (events : List (Event ι K)) :
    ClientWritten (s.run packFloat obstacles events).shm := by
  refine List.foldlRecOn (motive := fun after : System ι K => ClientWritten after.shm) events _ h ?_
  exact fun _ written event _ => written.step packFloat obstacles event

theorem System.run_command {s : System ι K} {events : List (Event ι K)}
    (quiet : ∀ client time torques margin gamma,
      .call client time (.dispatchVlaTorque torques margin gamma) ∉ events) :
    (s.run packFloat obstacles events).shm.command = s.shm.command := by
  refine List.foldlRecOn (motive := fun after : System ι K =>
    after.shm.command = s.shm.command) events _ rfl ?_
  intro after kept event member
  rw [← kept]
  have beat : ∀ c : NeuroKineticClient K, (sendHeartbeat c).1.buf.command = c.buf.command := by
    intro c
    rcases sendHeartbeat_cases c with ⟨same, _⟩ | ⟨stored, _⟩
    · rw [same]
    · rw [stored]
  cases event with
  | tick tickStart => rfl
  | call client time call =>
    cases call with
    | sendHeartbeat => exact beat _
    | readTelemetry => exact beat _
    | dispatchVlaTorque torques margin gamma =>
      exact absurd member (quiet client time torques margin gamma)

end Runs

end NeuroKinetic
