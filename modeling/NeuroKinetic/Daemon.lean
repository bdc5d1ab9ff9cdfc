import NeuroKinetic.Kernel

namespace NeuroKinetic

structure CommandSlot (K : Type) where
  seq : Nat
  nominalTorques : Fin DOF → Ieee K
  targetPositions : Fin DOF → Ieee K
  obstacleSafetyMargin : Ieee K
  barrierGamma : Ieee K
  commandFlags : Nat

/-- The values one tick loads from the command slot, in load order. -/
structure CommandRead (K : Type) where
  cmdSeq1 : Nat
  nominalTorques : Fin DOF → Ieee K
  commandFlags : Nat
  obstacleSafetyMargin : Ieee K
  cmdSeq2 : Nat

/-- The loads of a tick that no writer overlaps. -/
def CommandSlot.read {K : Type} (slot : CommandSlot K) : CommandRead K :=
  ⟨slot.seq, slot.nominalTorques, slot.commandFlags, slot.obstacleSafetyMargin, slot.seq⟩

/-- Dead-man's watchdog; times are steady-clock nanoseconds. -/
structure Watchdog where
  lastPythonHeartbeat : Nat
  lastHeartbeatChangeTime : Int
  tripped : Bool
  deriving DecidableEq, Repr

def Watchdog.start (now : Int) : Watchdog := ⟨0, now, false⟩

def Watchdog.evaluate (w : Watchdog) (heartbeat : Nat) (tickStart : Int) : Watchdog :=
  if heartbeat ≠ w.lastPythonHeartbeat then ⟨heartbeat, tickStart, false⟩
  else
    -- duration_cast truncates the nanoseconds to whole milliseconds
    let silentMs := (tickStart - w.lastHeartbeatChangeTime).tdiv 1000000
    if 150 < silentMs ∧ 0 < w.lastPythonHeartbeat then { w with tripped := true } else w

variable {K : Type} [Field K] [LinearOrder K]

def zeroTorque : Fin DOF → Ieee K := fun _ => .fin 0

/-- The literal `0.08f`, as the float it stands for. -/
def defaultMargin : Ieee K := .fin (((10737418 : Nat) : K) / ((134217728 : Nat) : K))

structure Ingested (K : Type) where
  nominalTorque : Fin DOF → Ieee K
  flags : Nat
  dynamicMargin : Ieee K

/-- Seqlock read of the command: a second sequence that differs from the first
clears the torques and nothing else. -/
def ingestCommand (r : CommandRead K) : Ingested K :=
  if r.cmdSeq1 % 2 = 0 ∧ r.cmdSeq1 ≠ 0 then
    let nominalTorque := if r.cmdSeq1 ≠ r.cmdSeq2 then zeroTorque else r.nominalTorques
    ⟨nominalTorque, r.commandFlags, r.obstacleSafetyMargin⟩
  else ⟨zeroTorque, 0, defaultMargin⟩

/-- What a tick observes of the outside: its start time, the heartbeat word and
the loads from the command slot. -/
structure TickInput (K : Type) where
  tickStart : Int
  heartbeatPython : Nat
  command : CommandRead K

structure TickCommand (K : Type) where
  watchdog : Watchdog
  limits : KinematicLimits K
  nominalTorque : Fin DOF → Ieee K
  flags : Nat

/-- Steps 1 and 2 of a tick: watchdog, ingest, margin hot-reload, override. -/
def tickCommand (limits : KinematicLimits K) (w : Watchdog) (input : TickInput K) :
    TickCommand K :=
  let watchdog := w.evaluate input.heartbeatPython input.tickStart
  let ingested := ingestCommand input.command
  let limits := { limits with
    minObstacleDistance := stdClamp ingested.dynamicMargin (.fin 0.02) (.fin 0.30) }
  let nominalTorque :=
    if watchdog.tripped ∨ ingested.flags &&& 2 ≠ 0 then zeroTorque else ingested.nominalTorque
  ⟨watchdog, limits, nominalTorque, ingested.flags⟩

/-- `value_or` of the tick: zero torque, reported as an intervention. -/
def fallbackOutput : SafetyOutput K := ⟨zeroTorque, true, .fin 0⟩

def integrate (state : ManipulatorState K) (torque : Fin DOF → Ieee K) : ManipulatorState K :=
  let qDot := fun i => (state.qDot i + torque i / .fin 10 * .fin 0.002) * .fin 0.98
  { state with qDot := qDot, q := fun i => state.q i + qDot i * .fin 0.002 }

structure DaemonState (K : Type) where
  limits : KinematicLimits K
  state : ManipulatorState K
  watchdog : Watchdog
  tickCount : Nat

/-- What the later steps of a tick use: the overridden command, the filter's
result and the output that was applied. -/
structure TickOutput (K : Type) where
  nominalTorque : Fin DOF → Ieee K
  flags : Nat
  result : Except KernelErrorCode (SafetyOutput K)
  safety : SafetyOutput K

section Tick

variable [SquareRoot K] [RidgeProjection.ExactSolver K]

/-- One iteration of the safety loop, up to the integration step. -/
def tick (obstacles : List (Obstacle K)) (s : DaemonState K) (input : TickInput K) :
    DaemonState K × TickOutput K :=
  let command := tickCommand s.limits s.watchdog input
  let result := filterTorques command.limits s.state command.nominalTorque obstacles
  let safety := match result with
    | .ok output => output
    | .error _ => fallbackOutput
  (⟨command.limits, integrate s.state safety.safeTorque, command.watchdog,
      (s.tickCount + 1) % 2 ^ 64⟩,
    ⟨command.nominalTorque, command.flags, result, safety⟩)

def runTicks (obstacles : List (Obstacle K)) (s : DaemonState K) (inputs : List (TickInput K)) :
    DaemonState K :=
  inputs.foldl (fun s input => (tick obstacles s input).1) s

end Tick

def daemonLimits : KinematicLimits K where
  qMin := fun _ => -2.89
  qMax := fun _ => 2.89
  qDotMax := fun _ => 2.17
  torqueMax := fun _ => 87
  minObstacleDistance := .fin 0.08

def daemonState : ManipulatorState K where
  q := fun i => .fin (![0, 0.2, 0, -1.2, 0, 2.80, 0] i)
  qDot := fun _ => .fin 0
  endEffectorPos := ![.fin 0.45, .fin 0.10, .fin 0.32]

def daemonObstacles : List (Obstacle K) :=
  [⟨![.fin 0.50, .fin 0.10, .fin 0.30], .fin 0.05⟩]

def daemonStart (now : Int) : DaemonState K :=
  ⟨daemonLimits, daemonState, Watchdog.start now, 0⟩

end NeuroKinetic
