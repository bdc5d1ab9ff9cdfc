import NeuroKinetic.Library.Binary32
import NeuroKinetic.Library.OrderedCopy
import NeuroKinetic.MarginReload

open OrderedCopy RidgeProjection

namespace NeuroKinetic

/-- The server: the heartbeat counter of its client, if it has one, and the
values it reports. -/
structure Gateway (K : Type) where
  client : Option Nat
  currentSafetyMargin : Ieee K
  currentGamma : Ieee K

/-- Who dispatched last: the server, with the margin that it passed on, or a caller. -/
inductive SlotAuthor (K : Type) where
  | none
  | server (safetyMargin : Ieee K)
  | caller

/-- The server, the planners and fleet agents with clients of their own, and the daemon. -/
structure TuningSystem (ι K : Type) where
  shm : SharedMemory K
  server : Gateway K
  heartbeatCounter : ι → Nat
  daemon : DaemonState K
  author : SlotAuthor K

inductive TuningEvent (ι K : Type) where
  | tuning (safetyMargin gamma : Ieee K)
  | hazard
  | reset
  | dispatch (client : ι) (torques : List (Ieee K))
  | tick (tickStart : Int)

section Step

variable {ι K : Type} [Field K] (packFloat : Ieee K → Option (Ieee K))

def TuningSystem.start (now : Int) (client : Option Nat) : TuningSystem ι K :=
  ⟨⟨0, initialCommand⟩, ⟨client, .fin 0.08, .fin 15⟩, fun _ => 0, daemonStart now, .none⟩

def TuningSystem.input (s : TuningSystem ι K) (tickStart : Int) : TickInput K :=
  ⟨tickStart, s.shm.heartbeatPython, s.shm.command.read⟩

/-- A dispatch of the server, which passes its current margin and gamma on. -/
def TuningSystem.serverDispatch (s : TuningSystem ι K) (torques : List (Ieee K)) :
    TuningSystem ι K :=
  match s.server.client with
  | none => s
  | some counter =>
    let after := dispatchVlaTorque packFloat torques s.server.currentSafetyMargin
      s.server.currentGamma ⟨counter, s.shm⟩
    let author := match after.2 with
      | .ok _ => .server s.server.currentSafetyMargin
      | .error _ => s.author
    { s with
      shm := after.1.buf
      server := { s.server with client := some after.1.heartbeatCounter }
      author := author }

/-- A dispatch with torques only: margin and gamma take the client's defaults. -/
def TuningSystem.callerDispatch [DecidableEq ι] (s : TuningSystem ι K) (client : ι)
    (torques : List (Ieee K)) : TuningSystem ι K :=
  let after := dispatchVlaTorque packFloat torques (.fin 0.08) (.fin 15)
    ⟨s.heartbeatCounter client, s.shm⟩
  let author := match after.2 with
    | .ok _ => .caller
    | .error _ => s.author
  { s with
    shm := after.1.buf
    heartbeatCounter := Function.update s.heartbeatCounter client after.1.heartbeatCounter
    author := author }

/-- `update_barrier_tuning`: the reported values change before the dispatch is tried. -/
def TuningSystem.updateBarrierTuning (s : TuningSystem ι K) (safetyMargin gamma : Ieee K) :
    TuningSystem ι K :=
  TuningSystem.serverDispatch packFloat
    { s with
      server := { s.server with currentSafetyMargin := safetyMargin, currentGamma := gamma } }
    (List.replicate DOF (.fin 0))

def TuningSystem.triggerHazard (s : TuningSystem ι K) : TuningSystem ι K :=
  s.serverDispatch packFloat
    [.fin 0, .fin 0, .fin 0, .fin 0, .fin 0, .fin 45, .fin 0]

def TuningSystem.triggerReset (s : TuningSystem ι K) : TuningSystem ι K :=
  s.serverDispatch packFloat (List.replicate DOF (.fin 0))

variable [LinearOrder K] [SquareRoot K] [ExactSolver K] [DecidableEq ι]
  (obstacles : List (Obstacle K))

def TuningSystem.step (s : TuningSystem ι K) : TuningEvent ι K → TuningSystem ι K
  | .tuning safetyMargin gamma => s.updateBarrierTuning packFloat safetyMargin gamma
  | .hazard => s.triggerHazard packFloat
  | .reset => s.triggerReset packFloat
  | .dispatch client torques => s.callerDispatch packFloat client torques
  | .tick tickStart => { s with daemon := (tick obstacles s.daemon (s.input tickStart)).1 }

def TuningSystem.run (s : TuningSystem ι K) (events : List (TuningEvent ι K)) :
    TuningSystem ι K :=
  events.foldl (TuningSystem.step packFloat obstacles) s

end Step

section Enforced

variable {ι K : Type} [Field K] [LinearOrder K] (packFloat : Ieee K → Option (Ieee K))

/-- The obstacle distance that a dispatched margin leads to. -/
def enforcedMargin (m : Ieee K) : Option (Ieee K) :=
  (packFloat m).map fun packed => stdClamp packed (.fin 0.02) (.fin 0.30)

/-- The last dispatch was the server's, with a margin that clamps like the current
one, or a caller's, and then the default margin clamps like the current one. -/
def TuningSystem.Carried (s : TuningSystem ι K) : Prop :=
  match s.author with
  | .none => False
  | .server safetyMargin =>
    enforcedMargin packFloat safetyMargin = enforcedMargin packFloat s.server.currentSafetyMargin
  | .caller =>
    enforcedMargin packFloat (.fin 0.08) = enforcedMargin packFloat s.server.currentSafetyMargin

end Enforced

section Author

variable {ι K : Type} [Field K] {packFloat : Ieee K → Option (Ieee K)} {s : TuningSystem ι K}

/-- The author of the slot's command has packed its own margin into it. -/
structure AuthorInv (packFloat : Ieee K → Option (Ieee K)) (s : TuningSystem ι K) : Prop where
  none : s.author = .none → s.shm.command.seq = 0
  server : ∀ margin, s.author = .server margin →
    packFloat margin = some s.shm.command.obstacleSafetyMargin
  caller : s.author = .caller →
    packFloat (.fin 0.08) = some s.shm.command.obstacleSafetyMargin

theorem authorInv_start (now : Int) (client : Option Nat) :
    AuthorInv packFloat (TuningSystem.start now client : TuningSystem ι K) := by
  refine ⟨fun _ => rfl, fun margin h => ?_, fun h => ?_⟩
  · cases h
  · cases h

/-- A command that stays in place, or is stored together with its author's margin. -/
theorem AuthorInv.dispatched (h : AuthorInv packFloat s) {after : TuningSystem ι K}
    (change : (after.author = s.author ∧ after.shm.command = s.shm.command) ∨
      (∃ margin, after.author = .server margin ∧
        packFloat margin = some after.shm.command.obstacleSafetyMargin) ∨
      (after.author = .caller ∧
        packFloat (.fin 0.08) = some after.shm.command.obstacleSafetyMargin)) :
    AuthorInv packFloat after := by
  rcases change with ⟨author, command⟩ | ⟨margin, author, packed⟩ | ⟨author, packed⟩
  · refine ⟨fun none => ?_, fun margin server => ?_, fun caller => ?_⟩
    · rw [command]
      exact h.none (author ▸ none)
    · rw [command]
      exact h.server margin (author ▸ server)
    · rw [command]
      exact h.caller (author ▸ caller)
  · refine ⟨fun none => ?_, fun margin' server => ?_, fun caller => ?_⟩
    · rw [author] at none
      cases none
    · rw [author] at server
      cases server
      exact packed
    · rw [author] at caller
      cases caller
  · refine ⟨fun none => ?_, fun margin server => ?_, fun _ => packed⟩
    · rw [author] at none
      cases none
    · rw [author] at server
      cases server

theorem AuthorInv.serverDispatch (h : AuthorInv packFloat s) (torques : List (Ieee K)) :
    AuthorInv packFloat (s.serverDispatch packFloat torques) := by
  apply h.dispatched
  unfold TuningSystem.serverDispatch
  split
  next => exact Or.inl ⟨rfl, rfl⟩
  next counter _ =>
    rcases dispatchVlaTorque_cases packFloat torques s.server.currentSafetyMargin
      s.server.currentGamma ⟨counter, s.shm⟩ with ⟨sent, packed⟩ | ⟨e, raised, same⟩
    · exact Or.inr (Or.inl ⟨s.server.currentSafetyMargin, by simp only [sent],
        packCommand_margin packed⟩)
    · exact Or.inl ⟨by simp only [raised], same⟩

theorem AuthorInv.callerDispatch [DecidableEq ι] (h : AuthorInv packFloat s) (client : ι)
    (torques : List (Ieee K)) : AuthorInv packFloat (s.callerDispatch packFloat client torques) := by
  apply h.dispatched
  unfold TuningSystem.callerDispatch
  rcases dispatchVlaTorque_cases packFloat torques (.fin 0.08) (.fin 15)
    ⟨s.heartbeatCounter client, s.shm⟩ with ⟨sent, packed⟩ | ⟨e, raised, same⟩
  · exact Or.inr (Or.inr ⟨by simp only [sent], packCommand_margin packed⟩)
  · exact Or.inl ⟨by simp only [raised], same⟩

theorem AuthorInv.updateBarrierTuning (h : AuthorInv packFloat s) (safetyMargin gamma : Ieee K) :
    AuthorInv packFloat (s.updateBarrierTuning packFloat safetyMargin gamma) := by
  apply AuthorInv.serverDispatch
  exact ⟨h.none, h.server, h.caller⟩

variable [LinearOrder K] [SquareRoot K] [ExactSolver K] [DecidableEq ι]
  (obstacles : List (Obstacle K))

theorem AuthorInv.step (h : AuthorInv packFloat s) (event : TuningEvent ι K) :
    AuthorInv packFloat (s.step packFloat obstacles event) := by
  cases event with
  | tuning safetyMargin gamma => exact h.updateBarrierTuning safetyMargin gamma
  | hazard => exact h.serverDispatch _
  | reset => exact h.serverDispatch _
  | dispatch client torques => exact h.callerDispatch client torques
  | tick tickStart => exact ⟨h.none, h.server, h.caller⟩

theorem AuthorInv.run (h : AuthorInv packFloat s) (events : List (TuningEvent ι K)) :
    AuthorInv packFloat (s.run packFloat obstacles events) :=
  List.foldlRecOn events _ h fun _ inv event _ => inv.step obstacles event

/-- A tick that accepts a command enforces the margin the server reports if and
only if the command's author carried it there. -/
theorem AuthorInv.enforced_iff (h : AuthorInv packFloat s) {tickStart : Int}
    (accepted : (s.input tickStart).command.Accepted) :
    some (s.step packFloat obstacles (.tick tickStart)).daemon.limits.minObstacleDistance =
      enforcedMargin packFloat s.server.currentSafetyMargin ↔ s.Carried packFloat := by
  have installed : some (s.step packFloat obstacles
      (.tick tickStart)).daemon.limits.minObstacleDistance =
      (some s.shm.command.obstacleSafetyMargin).map
        fun packed => stdClamp packed (.fin 0.02) (.fin 0.30) := by
    simp only [TuningSystem.step, tick, tickCommand, ingestCommand_accepted accepted]
    rfl
  rw [installed, TuningSystem.Carried]
  cases author : s.author with
  | none => exact absurd (h.none author) accepted.2.1
  | server margin =>
    rw [← h.server margin author]
    exact Iff.rfl
  | caller =>
    rw [← h.caller author]
    exact Iff.rfl

end Author

section Reported

variable {ι K : Type} [Field K] (packFloat : Ieee K → Option (Ieee K))

theorem serverDispatch_margin (s : TuningSystem ι K) (torques : List (Ieee K)) :
    (s.serverDispatch packFloat torques).server.currentSafetyMargin =
      s.server.currentSafetyMargin := by
  unfold TuningSystem.serverDispatch
  split <;> rfl

variable [LinearOrder K] [SquareRoot K] [ExactSolver K] [DecidableEq ι]
  (obstacles : List (Obstacle K))

/-- The server reports the margin of the most recent tuning request. -/
theorem run_currentSafetyMargin (s : TuningSystem ι K) (safetyMargin gamma : Ieee K)
    {later : List (TuningEvent ι K)} (latest : ∀ m g, .tuning m g ∉ later) :
    (s.run packFloat obstacles (.tuning safetyMargin gamma :: later)).server.currentSafetyMargin =
      safetyMargin := by
  refine List.foldlRecOn
    (motive := fun s : TuningSystem ι K => s.server.currentSafetyMargin = safetyMargin)
    later _ ?_ ?_
  · exact serverDispatch_margin packFloat _ _
  · intro s reported event member
    cases event with
    | tuning m g => exact absurd member (latest m g)
    | hazard => exact (serverDispatch_margin packFloat _ _).trans reported
    | reset => exact (serverDispatch_margin packFloat _ _).trans reported
    | dispatch client torques => exact reported
    | tick tickStart => exact reported

end Reported

/-- After a tuning, an accepting tick enforces the tuned margin if and only if the
last dispatch carried it. -/
theorem tuned_margin_enforced_iff {ι K : Type} [Field K] [LinearOrder K] [SquareRoot K]
    [ExactSolver K] [DecidableEq ι] (packFloat : Ieee K → Option (Ieee K))
    (obstacles : List (Obstacle K)) (now : Int) (client : Option Nat)
    (before later : List (TuningEvent ι K)) (safetyMargin gamma : Ieee K)
    (latest : ∀ m g, .tuning m g ∉ later) (tickStart : Int) :
    let s := (TuningSystem.start now client).run packFloat obstacles
      (before ++ .tuning safetyMargin gamma :: later)
    s.server.currentSafetyMargin = safetyMargin ∧
      ((s.input tickStart).command.Accepted →
        (some (s.step packFloat obstacles (.tick tickStart)).daemon.limits.minObstacleDistance =
          enforcedMargin packFloat safetyMargin ↔ s.Carried packFloat)) := by
  intro s
  have reported : s.server.currentSafetyMargin = safetyMargin := by
    have split : s = ((TuningSystem.start now client).run packFloat obstacles before).run packFloat
        obstacles (.tuning safetyMargin gamma :: later) := List.foldl_append
    rw [split]
    exact run_currentSafetyMargin packFloat obstacles _ safetyMargin gamma latest
  refine ⟨reported, fun accepted => ?_⟩
  have inv : AuthorInv packFloat s := (authorInv_start now client).run obstacles _
  rw [← reported]
  exact inv.enforced_iff obstacles accepted

section Lost

theorem round_quarter : Binary32.round (.fin 0.25 : Ieee ℝ) = some (.fin 0.25) := by
  have word : Binary32.decode 0x3E800000#32 = (.fin 0.25 : Ieee ℝ) := by
    simp [Binary32.decode, Binary32.infinityBits, Binary32.magnitude, Binary32.pow2]
    norm_num
  rw [← word, Binary32.round_decode]

theorem round_fifteen : Binary32.round (.fin 15 : Ieee ℝ) = some (.fin 15) := by
  have word : Binary32.decode 0x41700000#32 = (.fin 15 : Ieee ℝ) := by
    simp [Binary32.decode, Binary32.infinityBits, Binary32.magnitude, Binary32.pow2]
    norm_num
  rw [← word, Binary32.round_decode]

theorem round_default :
    Binary32.round (.fin 0.08 : Ieee ℝ) = some (.fin (10737418 / 2 ^ 27)) := by
  have log : Int.log 2 (0.08 : ℝ) = -4 := by
    have positive : (0 : ℝ) < 0.08 := by norm_num
    have lower : -4 ≤ Int.log 2 (0.08 : ℝ) :=
      (Int.zpow_le_iff_le_log one_lt_two positive).mp (by norm_num)
    have upper : Int.log 2 (0.08 : ℝ) < -3 :=
      (Int.lt_zpow_iff_log_lt one_lt_two positive).mp (by norm_num)
    omega
  have magnitude : Binary32.encodeMagnitude |(0.08 : ℝ)| = 0x3DA3D70A := by
    have floor : ⌊(0.08 * 2 ^ 27 : ℝ)⌋ = 10737418 := by
      rw [Int.floor_eq_iff]
      norm_num
    rw [abs_of_pos (by norm_num)]
    have big : ¬(0.08 : ℝ) < Binary32.pow2 (-126) := by
      norm_num [Binary32.pow2]
    simp only [Binary32.encodeMagnitude, if_neg big, log]
    have scale : (0.08 : ℝ) * Binary32.pow2 (23 - -4) = 0.08 * 2 ^ 27 := by
      norm_num [Binary32.pow2]
    have exponent : (-4 + 126 : ℤ).toNat = 122 := rfl
    have mantissa : (10737418 : ℤ).toNat = 10737418 := rfl
    rw [scale, exponent, Binary32.roundHalfEven, floor, mantissa]
    norm_num
  simp only [Binary32.round, Binary32.encode, magnitude]
  norm_num [Binary32.infinityBits, Binary32.decode, Binary32.magnitude, Binary32.pow2]

theorem dispatch_zeros {margin packed : Ieee ℝ} (h : Binary32.round margin = some packed)
    {counter : Nat} {shm : SharedMemory ℝ} (beats : counter + 1 < 2 ^ 64)
    (room : finalSeq shm.command.seq < 2 ^ 64) :
    dispatchVlaTorque Binary32.round (List.replicate DOF (.fin 0)) margin (.fin 15) ⟨counter, shm⟩ =
      (⟨counter + 1, ⟨counter + 1, finalSeq shm.command.seq,
        fun i => (List.replicate DOF (.fin 0)).getD i (.fin 0), fun _ => .fin 0, packed, .fin 15, 1⟩⟩,
        .ok ()) := by
  have zeros : (List.replicate DOF (.fin 0)).mapM Binary32.round =
      some (List.replicate DOF (.fin 0 : Ieee ℝ)) := by
    simp [List.replicate, Binary32.round_zero]
  exact dispatchVlaTorque_ok beats (packCommand_eq (by simp) room zeros h round_fifteen)

/-- A tuning to 0.25 m, and then torques from a planner. -/
noncomputable def lostEvents : List (TuningEvent Unit ℝ) :=
  [.tuning (.fin 0.25) (.fin 15), .dispatch () (List.replicate DOF (.fin 0))]

noncomputable def lostState : TuningSystem Unit ℝ :=
  (TuningSystem.start 0 (some 0)).run Binary32.round daemonObstacles lostEvents

theorem lostState_author : lostState.author = .caller := by
  simp (disch := decide) only [lostState, lostEvents, TuningSystem.run, List.foldl,
    TuningSystem.start, TuningSystem.step, TuningSystem.updateBarrierTuning,
    TuningSystem.serverDispatch, TuningSystem.callerDispatch, dispatch_zeros round_quarter,
    dispatch_zeros round_default]

theorem lostState_reset :
    (lostState.step Binary32.round daemonObstacles .reset).author = .server (.fin 0.25) := by
  simp (disch := decide) only [lostState, lostEvents, TuningSystem.run, List.foldl,
    TuningSystem.start, TuningSystem.step, TuningSystem.updateBarrierTuning,
    TuningSystem.serverDispatch, TuningSystem.callerDispatch, TuningSystem.triggerReset,
    dispatch_zeros round_quarter, dispatch_zeros round_default]

theorem lostState_accepted : (lostState.input 0).command.Accepted ∧
    ((lostState.step Binary32.round daemonObstacles .reset).input 0).command.Accepted := by
  simp (disch := decide) only [lostState, lostEvents, TuningSystem.run, List.foldl,
    TuningSystem.start, TuningSystem.step, TuningSystem.updateBarrierTuning,
    TuningSystem.serverDispatch, TuningSystem.callerDispatch, TuningSystem.triggerReset,
    dispatch_zeros round_quarter, dispatch_zeros round_default]
  exact ⟨⟨by decide, by decide, rfl⟩, by decide, by decide, rfl⟩

theorem lostState_margin : lostState.server.currentSafetyMargin = .fin 0.25 := by
  have lost : lostState = (((TuningSystem.start 0 (some 0)).updateBarrierTuning Binary32.round
      (.fin 0.25) (.fin 15)).callerDispatch Binary32.round () (List.replicate DOF (.fin 0))) := rfl
  rw [lost]
  exact serverDispatch_margin Binary32.round _ _

theorem enforcedMargin_quarter :
    enforcedMargin Binary32.round (.fin 0.25 : Ieee ℝ) = some (.fin 0.25) := by
  rw [enforcedMargin, round_quarter, Option.map_some]
  simp [stdClamp]
  norm_num

theorem enforcedMargin_default :
    enforcedMargin Binary32.round (.fin 0.08 : Ieee ℝ) = some (.fin (10737418 / 2 ^ 27)) := by
  rw [enforcedMargin, round_default, Option.map_some]
  simp [stdClamp]
  norm_num

/-- The planner's default of 0.08 m is what the next tick enforces. -/
theorem tuned_margin_lost :
    (lostState.input 0).command.Accepted ∧
      lostState.server.currentSafetyMargin = .fin 0.25 ∧
      enforcedMargin Binary32.round (.fin 0.25 : Ieee ℝ) = some (.fin 0.25) ∧
      (lostState.step Binary32.round daemonObstacles (.tick 0)).daemon.limits.minObstacleDistance =
        .fin (10737418 / 2 ^ 27) := by
  refine ⟨lostState_accepted.1, lostState_margin, enforcedMargin_quarter, ?_⟩
  have packed : Binary32.round (.fin 0.08 : Ieee ℝ) =
      some lostState.shm.command.obstacleSafetyMargin :=
    ((authorInv_start 0 (some 0)).run daemonObstacles lostEvents).caller lostState_author
  have installed := enforcedMargin_default
  rw [enforcedMargin, packed, Option.map_some, Option.some_inj] at installed
  rw [← installed]
  simp only [TuningSystem.step, tick, tickCommand, ingestCommand_accepted lostState_accepted.1]
  rfl

theorem tuned_margin_enforced_iff_reset :
    let s := lostState.step Binary32.round daemonObstacles .reset
    (s.input 0).command.Accepted ∧ s.Carried Binary32.round ∧
      some (s.step Binary32.round daemonObstacles (.tick 0)).daemon.limits.minObstacleDistance =
        enforcedMargin Binary32.round (.fin 0.25) := by
  intro s
  have last : s = (TuningSystem.start 0 (some 0)).run Binary32.round daemonObstacles
      ([] ++ .tuning (.fin 0.25) (.fin 15) ::
        [.dispatch () (List.replicate DOF (.fin 0)), .reset]) := rfl
  obtain ⟨reported, enforced⟩ := tuned_margin_enforced_iff Binary32.round daemonObstacles 0
    (some 0) ([] : List (TuningEvent Unit ℝ)) [.dispatch () (List.replicate DOF (.fin 0)), .reset]
    (.fin 0.25) (.fin 15) (by simp) 0
  rw [← last] at reported enforced
  have carried : s.Carried Binary32.round := by
    rw [TuningSystem.Carried, lostState_reset, reported]
  exact ⟨lostState_accepted.2, carried, (enforced lostState_accepted.2).mpr carried⟩

end Lost

end NeuroKinetic
