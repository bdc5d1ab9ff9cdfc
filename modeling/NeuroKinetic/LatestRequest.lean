import NeuroKinetic.Dispatch
import NeuroKinetic.PublishedFrames
import NeuroKinetic.ShmDispatch
import NeuroKinetic.SystemRuns

open Binary32 RidgeProjection

namespace NeuroKinetic

section Requests

variable {K : Type} [Field K] (packFloat : Ieee K → Option (Ieee K))

/-- The torques that a request asks for, as the slot holds them. -/
def requestedTorque : Option (DispatchArgs K) → Fin DOF → Ieee K
  | none => zeroTorque
  | some args => fun i => (packFloat (args.torques.getD i (.fin 0))).getD (.fin 0)

def requestedMargin : Option (DispatchArgs K) → Ieee K
  | none => defaultMargin
  | some args => (packFloat args.safetyMargin).getD defaultMargin

/-- The slot carries a request; before the first one it is as constructed. -/
inductive Carries : Option (DispatchArgs K) → CommandSlot K → Prop
  | constructed : Carries none initialCommand
  | sent (args : DispatchArgs K) (slot : CommandSlot K) (even : slot.seq % 2 = 0)
      (nonzero : slot.seq ≠ 0)
      (packed : packCommand packFloat slot.seq args.torques args.safetyMargin args.gamma = .ok slot) :
      Carries (some args) slot

theorem requestedTorque_some (args : DispatchArgs K) (i : Fin DOF) :
    requestedTorque packFloat (some args) i =
      (packFloat (args.torques.getD i (.fin 0))).getD (.fin 0) := rfl

variable {packFloat}

theorem packCommand_requested {args : DispatchArgs K} {seq : Nat} {slot : CommandSlot K}
    (zero : packFloat (.fin 0) = some (.fin 0))
    (h : packCommand packFloat seq args.torques args.safetyMargin args.gamma = .ok slot) :
    args.torques.length = DOF ∧ (∀ x ∈ args.torques, (packFloat x).isSome) ∧
      slot.nominalTorques = requestedTorque packFloat (some args) ∧
      slot.obstacleSafetyMargin = requestedMargin packFloat (some args) ∧ slot.commandFlags = 1 := by
  have margin := packCommand_margin h
  have flags := (packCommand_ok h).2
  unfold packCommand at h
  split at h
  next => cases h
  next accepted =>
    split at h
    next nominal safe stiffness packed _ _ =>
      have each := isSome_of_mapM packed
      have values : nominal = args.torques.map fun x => (packFloat x).getD (.fin 0) :=
        Option.some.inj (packed.symm.trans (mapM_getD (.fin 0) each))
      refine ⟨by omega, each, ?_, by rw [requestedMargin, margin, Option.getD_some], flags⟩
      cases Except.ok.inj h
      funext i
      have mapped := List.getD_map (l := args.torques) (d := .fin 0) (n := (i : Nat))
        fun x => (packFloat x).getD (.fin 0)
      simp only [zero, Option.getD_some] at mapped
      simp only [values, mapped, requestedTorque]
    next => cases h

/-- Of the slot a tick reads nothing but the request it carries. -/
theorem Carries.ingest {request : Option (DispatchArgs K)} {slot : CommandSlot K}
    (zero : packFloat (.fin 0) = some (.fin 0)) (h : Carries packFloat request slot) :
    ingestCommand slot.read = ⟨requestedTorque packFloat request, if request.isSome then 1 else 0,
      requestedMargin packFloat request⟩ := by
  cases h with
  | constructed => rfl
  | sent args slot even nonzero packed =>
    obtain ⟨_, _, torques, margin, flags⟩ := packCommand_requested zero packed
    have accepted : slot.read.Accepted := ⟨even, nonzero, rfl⟩
    rw [ingestCommand_accepted accepted, ← torques, ← margin, Option.isSome_some, if_pos rfl,
      ← flags]
    rfl

variable [LinearOrder K]

theorem tickCommand_carried {request : Option (DispatchArgs K)} {slot : CommandSlot K}
    (zero : packFloat (.fin 0) = some (.fin 0)) (h : Carries packFloat request slot)
    (limits : KinematicLimits K) (w : Watchdog) (tickStart : Int) (heartbeat : Nat) :
    let command := tickCommand limits w ⟨tickStart, heartbeat, slot.read⟩
    command.limits.minObstacleDistance =
        stdClamp (requestedMargin packFloat request) (.fin 0.02) (.fin 0.30) ∧
      command.nominalTorque =
        if command.watchdog.tripped then zeroTorque else requestedTorque packFloat request := by
  have noStop : ∀ b : Bool, (if b then 1 else 0) &&& 2 = 0 := by decide
  simp only [tickCommand, h.ingest zero, noStop, ne_eq, not_true_eq_false, or_false,
    and_self]

end Requests

section Runs

variable {ι K : Type} [Field K] (packFloat : Ieee K → Option (Ieee K))

/-- The request of a call that has stored it. -/
def System.sent (s : System ι K) : Event ι K → Option (DispatchArgs K)
  | .call client _ (.dispatchVlaTorque torques safetyMargin gamma) =>
    match (dispatchVlaTorque packFloat torques safetyMargin gamma
      ⟨s.heartbeatCounter client, s.shm⟩).2 with
    | .ok _ => some ⟨torques, safetyMargin, gamma⟩
    | .error _ => none
  | _ => none

variable [LinearOrder K] [SquareRoot K] [ExactSolver K] [DecidableEq ι]
  (obstacles : List (Obstacle K))

/-- The request of the last call that did not raise. -/
def System.latestRequest (s : System ι K) : List (Event ι K) → Option (DispatchArgs K)
  | [] => none
  | event :: rest =>
    (System.latestRequest (s.step packFloat obstacles event) rest).or (s.sent packFloat event)

variable {packFloat}

theorem Carries.step {s : System ι K} {request : Option (DispatchArgs K)}
    (h : Carries packFloat request s.shm.command) (event : Event ι K) :
    Carries packFloat ((s.sent packFloat event).or request)
      (s.step packFloat obstacles event).shm.command := by
  have beat : ∀ c : NeuroKineticClient K, (sendHeartbeat c).1.buf.command = c.buf.command := by
    intro c
    rcases sendHeartbeat_cases c with ⟨same, _⟩ | ⟨stored, _⟩
    · rw [same]
    · rw [stored]
  cases event with
  | tick tickStart => exact h
  | call client time call =>
    cases call with
    | sendHeartbeat => exact (beat ⟨s.heartbeatCounter client, s.shm⟩).symm ▸ h
    | readTelemetry => exact (beat ⟨s.heartbeatCounter client, s.shm⟩).symm ▸ h
    | dispatchVlaTorque torques safetyMargin gamma =>
      rcases dispatchVlaTorque_cases packFloat torques safetyMargin gamma
        ⟨s.heartbeatCounter client, s.shm⟩ with ⟨ok, packed⟩ | ⟨e, error, kept⟩
      · simp only [System.sent, ok, Option.some_or, System.step, ClientCall.run]
        have seq := (packCommand_ok packed).1
        refine .sent _ _ ?_ ?_ (seq.symm ▸ packed)
        · rw [seq]
          exact finalSeq_even _
        · rw [seq]
          exact (Nat.zero_le _).trans_lt (seq_lt_finalSeq _) |>.ne'
      · simp only [System.sent, error, Option.none_or, System.step, ClientCall.run, kept]
        exact h

theorem Carries.run {s : System ι K} {request : Option (DispatchArgs K)}
    (h : Carries packFloat request s.shm.command) (events : List (Event ι K)) :
    Carries packFloat ((s.latestRequest packFloat obstacles events).or request)
      (s.run packFloat obstacles events).shm.command := by
  induction events generalizing s request with
  | nil => exact h
  | cons event rest ih =>
    rw [System.latestRequest, Option.or_assoc, System.run_cons]
    exact ih (h.step obstacles event)

theorem System.run_slow [IsStrictOrderedRing K] {s : System ι K} {q qDot : Fin DOF → K}
    (h : PlantSlow s.daemon q qDot) (events : List (Event ι K)) :
    ∃ q' qDot', PlantSlow (s.run packFloat obstacles events).daemon q' qDot' := by
  refine List.foldlRecOn (motive := fun after : System ι K =>
    ∃ q qDot, PlantSlow after.daemon q qDot) events _ ⟨q, qDot, h⟩ ?_
  intro after held event _
  obtain ⟨q, qDot, slow⟩ := held
  cases event with
  | call client time call => exact ⟨q, qDot, slow⟩
  | tick tickStart =>
    obtain ⟨torque, applied, full⟩ := slow.applied obstacles (after.input tickStart)
    exact ⟨_, _, slow.tick applied full⟩

end Runs

section Ticks

variable {K : Type} [Field K] [LinearOrder K] [FloorRing K]

/-- A request with an entry that is not finite. -/
def Unfiltered (request : Option (DispatchArgs K)) : Prop :=
  ∃ args, request = some args ∧ ∃ x ∈ args.torques, x.toFinite? = none

/-- A tick that obeys a request: it installs the margin in every case, and puts the torques
through the filter unless the watchdog is tripped. -/
structure TickObeys [SquareRoot K] (obstacles : List (Obstacle K))
    (request : Option (DispatchArgs K)) (s : DaemonState K)
    (after : DaemonState K × TickOutput K) : Prop where
  limits : after.1.limits = { daemonLimits with
    minObstacleDistance := stdClamp (requestedMargin round request) (.fin 0.02) (.fin 0.30) }
  command : after.2.nominalTorque =
    if after.1.watchdog.tripped then zeroTorque else requestedTorque round request
  errorCode : ∀ seq systemClock, (publishedFrame seq systemClock after).errorCode = 1 ↔
    after.1.watchdog.tripped = false ∧ Unfiltered request
  refused : after.1.watchdog.tripped = false → Unfiltered request →
    after.2.safety = fallbackOutput
  applied : ∃ q : Fin DOF → K, s.state.q = (fun i => .fin (q i)) ∧
    ∀ u : Fin DOF → K, after.2.nominalTorque = (fun i => .fin (u i)) →
      after.2.safety.safeTorque = fun i => .fin (filteredTorque after.1.limits q
        s.state.endEffectorPos obstacles u i)

variable [IsStrictOrderedRing K]

theorem Carries.finite_iff {request : Option (DispatchArgs K)} {slot : CommandSlot K}
    (h : Carries round request slot) :
    (∃ u : Fin DOF → K, requestedTorque round request = fun i => .fin (u i)) ↔
      ¬Unfiltered request := by
  rw [Ieee.exists_fin_iff]
  cases h with
  | constructed =>
    refine ⟨fun _ => ?_, fun _ i => rfl⟩
    rintro ⟨args, none, _⟩
    cases none
  | sent args slot even nonzero packed =>
    obtain ⟨length, rounds, _⟩ := packCommand_requested round_zero packed
    have entry : ∀ x ∈ args.torques, ((round x).getD (.fin 0)).toFinite?.isSome ↔
        x.toFinite?.isSome := by
      intro x member
      obtain ⟨y, rounded⟩ := Option.isSome_iff_exists.mp (rounds x member)
      rw [rounded, Option.getD_some]
      exact round_toFinite? rounded
    constructor
    · intro finite
      rintro ⟨_, same, x, member, unordered⟩
      cases same
      obtain ⟨k, inside, rfl⟩ := List.getElem_of_mem member
      have number := finite ⟨k, length ▸ inside⟩
      rw [requestedTorque_some, List.getD_eq_getElem _ _ inside, entry _ member, unordered] at number
      cases number
    · intro filtered i
      have inside : (i : Nat) < args.torques.length := length.symm ▸ i.isLt
      have member := List.getElem_mem inside
      rw [requestedTorque_some, List.getD_eq_getElem _ _ inside, entry _ member]
      by_contra unordered
      exact filtered ⟨args, rfl, _, member, Option.not_isSome_iff_eq_none.mp unordered⟩

variable [SquareRoot K] [ExactSolver K]

theorem Carries.tickObeys {ι : Type} (obstacles : List (Obstacle K))
    {request : Option (DispatchArgs K)} {s : System ι K} {q qDot : Fin DOF → K}
    (h : Carries round request s.shm.command) (slow : PlantSlow s.daemon q qDot)
    (tickStart : Int) : TickObeys obstacles request s.daemon
      (tick obstacles s.daemon (s.input tickStart)) := by
  obtain ⟨margin, command⟩ := tickCommand_carried round_zero h s.daemon.limits s.daemon.watchdog
    tickStart s.shm.heartbeatPython
  have arm : DaemonArm (tick obstacles s.daemon (s.input tickStart)).1.limits :=
    slow.arm.tickCommand s.daemon.watchdog (s.input tickStart)
  have refusedIff : CommandRefused s.daemon (s.input tickStart) ↔
      (tick obstacles s.daemon (s.input tickStart)).1.watchdog.tripped = false ∧
        Unfiltered request := by
    cases watchdog : (tick obstacles s.daemon (s.input tickStart)).1.watchdog.tripped with
    | true =>
      refine ⟨fun refused => absurd refused (not_refused_of_tripped watchdog), fun refused => ?_⟩
      cases refused.1
    | false =>
      have passed : (tickCommand s.daemon.limits s.daemon.watchdog
          (s.input tickStart)).nominalTorque = requestedTorque round request :=
        command.trans (if_neg (Bool.eq_false_iff.mp watchdog))
      rw [CommandRefused, passed, h.finite_iff, not_not, eq_self, true_and]
  refine ⟨?_, command, fun seq systemClock => ?_, fun watchdog unfiltered => ?_,
    q, slow.plant.position, fun u finite => tick_applied obstacles slow.arm slow.plant finite⟩
  · obtain ⟨margin', limits⟩ := arm
    have installed : margin' = stdClamp (requestedMargin round request) (.fin 0.02) (.fin 0.30) := by
      rw [← margin]
      exact (congrArg KinematicLimits.minObstacleDistance limits).symm
    rw [limits, installed]
  · rw [← refusedIff]
    rcases tick_result obstacles slow (s.input tickStart) with
      ⟨refused, ⟨e, error⟩, _⟩ | ⟨finite, ⟨output, answer⟩, _⟩
    · simp only [publishedFrame, error, refused]
    · simp only [publishedFrame, answer, finite]
      decide
  · exact tick_fallback (refusedIff.mpr ⟨watchdog, unfiltered⟩)

end Ticks

/-- Whatever the calls of any number of clients, every tick obeys the request of the last
dispatch that did not raise. -/
theorem tick_obeys_latest_request {ι K : Type} [Field K] [LinearOrder K] [IsStrictOrderedRing K]
    [FloorRing K] [SquareRoot K] [ExactSolver K] [DecidableEq ι] (obstacles : List (Obstacle K))
    (now : Int) (events : List (Event ι K)) (tickStart : Int) :
    let s := (System.start now : System ι K).run round obstacles events
    TickObeys obstacles ((System.start now : System ι K).latestRequest round obstacles events)
      s.daemon (tick obstacles s.daemon (s.input tickStart)) := by
  intro s
  have carried : Carries round
      ((System.start now : System ι K).latestRequest round obstacles events) s.shm.command := by
    have started : Carries round none (System.start now : System ι K).shm.command := .constructed
    have run := started.run obstacles events
    rwa [Option.or_none] at run
  obtain ⟨q, qDot, slow⟩ : ∃ q qDot, PlantSlow s.daemon q qDot :=
    System.run_slow obstacles (daemonStart_slow now) events
  exact carried.tickObeys obstacles slow tickStart

section Unordered

/-- A dispatch of NaN torques. -/
noncomputable def unorderedRequest : DispatchArgs ℝ :=
  ⟨List.replicate DOF .nan, .fin 0, .fin 0⟩

noncomputable def unorderedEvents : List (Event Unit ℝ) :=
  [.call () 0 (.dispatchVlaTorque unorderedRequest.torques unorderedRequest.safetyMargin
    unorderedRequest.gamma)]

theorem unorderedRequest_sent : dispatchVlaTorque round unorderedRequest.torques
    unorderedRequest.safetyMargin unorderedRequest.gamma
      ⟨0, (System.start 0 : System Unit ℝ).shm⟩ =
    (⟨1, ⟨1, ⟨2, fun i => unorderedRequest.torques.getD i (.fin 0), fun _ => .fin 0, .fin 0,
      .fin 0, 1⟩⟩⟩, .ok ()) := by
  have rounded : round (.nan : Ieee ℝ) = some .nan := rfl
  have nominal : unorderedRequest.torques.mapM round = some unorderedRequest.torques :=
    mapM_self fun x member => by rw [List.eq_of_mem_replicate member, rounded]
  exact dispatchVlaTorque_ok (by norm_num)
    (packCommand_eq List.length_replicate (by decide) nominal round_zero round_zero)

theorem tick_obeys_latest_request_unordered :
    (publishedFrame 2 0 (tick daemonObstacles
      ((System.start 0).run round daemonObstacles unorderedEvents).daemon
      (((System.start 0).run round daemonObstacles unorderedEvents).input 1))).errorCode = 1 := by
  have obeys := tick_obeys_latest_request daemonObstacles 0 unorderedEvents 1
  have request : (System.start 0).latestRequest round daemonObstacles unorderedEvents =
      some unorderedRequest := by
    simp only [unorderedEvents, System.latestRequest, System.sent, Option.none_or]
    have returned := congrArg Prod.snd unorderedRequest_sent
    simp only at returned
    exact returned ▸ rfl
  have beat : ((System.start 0).run round daemonObstacles unorderedEvents).shm.heartbeatPython =
      1 := congrArg (fun after => after.1.buf.heartbeatPython) unorderedRequest_sent
  have changed : 1 ≠ (Watchdog.start 0).lastPythonHeartbeat := by decide
  rw [request] at obeys
  refine (obeys.errorCode 2 0).mpr ⟨?_, unorderedRequest, rfl, .nan, ?_, rfl⟩
  · have watchdog : (tick daemonObstacles
        ((System.start 0).run round daemonObstacles unorderedEvents).daemon
        (((System.start 0).run round daemonObstacles unorderedEvents).input 1)).1.watchdog =
        (Watchdog.start 0).evaluate 1 1 := by
      rw [← beat]
      rfl
    rw [watchdog, Watchdog.evaluate_changed changed]
  · exact List.mem_replicate.mpr ⟨by decide, rfl⟩

end Unordered

end NeuroKinetic
