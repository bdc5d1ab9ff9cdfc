import NeuroKinetic.DrainedStop
import NeuroKinetic.LogLines

open OutputStream

namespace NeuroKinetic

instance emptyEvent : Inhabited LogEvent := ⟨⟨0, Vector.replicate 32 0, Vector.replicate 160 0⟩⟩

/-- What the insertions into the stream print for an event, one by one. -/
def linePieces (event : LogEvent) : List (Option (List UInt8)) :=
  [some (asciiBytes "\x7b\"timestamp_ns\":".toList), some (asciiBytes (formatUint event.timestampNs)),
    some (asciiBytes ",\"tag\":\"".toList), cString event.tag.toList,
    some (asciiBytes "\",\"message\":\"".toList), cString event.message.toList,
    some (asciiBytes "\"\x7d\n".toList)]

/-- One insertion; an array that is read past its end leaves no output to speak of. -/
def insertPiece (output piece : Option (List UInt8)) : Option (List UInt8) := do
  let printed ← output
  let text ← piece
  return printed ++ text

/-- The logger: its queue, its thread and what it has printed. -/
abbrev AsyncLogger : Type := DrainedQueue LogEvent (Option (List UInt8)) (Option (List UInt8)) 2048

def AsyncLogger.init : AsyncLogger := DrainedQueue.init (some [])

def AsyncLogger.run (s : AsyncLogger) (turns : List (QueueTurn LogEvent)) : AsyncLogger :=
  DrainedQueue.run linePieces insertPiece s turns

/-- The events of the `try_log` calls that the turns begin. -/
def AsyncLogger.begun (s : AsyncLogger) (turns : List (QueueTurn LogEvent)) : List LogEvent :=
  DrainedQueue.begun linePieces insertPiece s turns

/-- Both arrays hold a NUL. -/
structure LogEvent.Terminated (event : LogEvent) : Prop where
  tag : (cString event.tag.toList).isSome
  message : (cString event.message.toList).isSome

section Pieces

variable {event : LogEvent} {events : List LogEvent}

theorem LogEvent.Ascii.terminated (h : event.Ascii) : event.Terminated := by
  obtain ⟨⟨tag, hasTag, _⟩, ⟨message, hasMessage, _⟩⟩ := h
  exact ⟨by rw [hasTag]; rfl, by rw [hasMessage]; rfl⟩

/-- The pieces of a terminated event make up its line. -/
theorem LogEvent.Terminated.linePieces_eq (h : event.Terminated) :
    ∃ texts : List (List UInt8), linePieces event = texts.map some ∧ texts.flatten = event.line := by
  obtain ⟨tag, hasTag⟩ := Option.isSome_iff_exists.mp h.tag
  obtain ⟨message, hasMessage⟩ := Option.isSome_iff_exists.mp h.message
  have closing : asciiBytes "\"\x7d\n".toList = asciiBytes "\"\x7d".toList ++ [10] := by decide
  refine ⟨[asciiBytes "\x7b\"timestamp_ns\":".toList, asciiBytes (formatUint event.timestampNs),
    asciiBytes ",\"tag\":\"".toList, tag, asciiBytes "\",\"message\":\"".toList, message,
    asciiBytes "\"\x7d\n".toList], ?_, ?_⟩
  · simp only [linePieces, hasTag, hasMessage, List.map_cons, List.map_nil]
  · rw [LogEvent.line, LogEvent.tagText, LogEvent.messageText, hasTag, hasMessage, logBody, closing]
    simp only [Option.getD_some, List.flatten_cons, List.flatten_nil, List.append_nil,
      List.append_assoc]

theorem flatMap_linePieces (terminated : ∀ event ∈ events, event.Terminated) :
    ∃ texts : List (List UInt8), events.flatMap linePieces = texts.map some ∧
      texts.flatten = events.flatMap LogEvent.line := by
  induction events with
  | nil => exact ⟨[], rfl, rfl⟩
  | cons event rest ih =>
    obtain ⟨texts, pieces, line⟩ := (terminated event List.mem_cons_self).linePieces_eq
    obtain ⟨others, later, lines⟩ := ih fun e member => terminated e (List.mem_cons_of_mem _ member)
    refine ⟨texts ++ others, ?_, ?_⟩
    · rw [List.flatMap_cons, pieces, later, List.map_append]
    · rw [List.flatten_append, line, lines, List.flatMap_cons]

theorem foldl_insertPiece (texts : List (List UInt8)) (output : List UInt8) :
    (texts.map some).foldl insertPiece (some output) = some (output ++ texts.flatten) := by
  induction texts generalizing output with
  | nil => simp
  | cons text rest ih =>
    rw [List.map_cons, List.foldl_cons]
    refine (ih (output ++ text)).trans ?_
    rw [List.flatten_cons, List.append_assoc]

end Pieces

section Runs

theorem AsyncLogger.inv (turns : List (QueueTurn LogEvent)) :
    DrainInv linePieces insertPiece (some []) (AsyncLogger.init.run turns) :=
  (drainInv_init linePieces insertPiece (some [])).run turns

theorem AsyncLogger.accepted_begun (turns : List (QueueTurn LogEvent)) :
    (AsyncLogger.init.run turns).queue.accepted.Sublist (AsyncLogger.init.begun turns) :=
  (List.sublist_append_left _ _).trans
    ((drainInv_init linePieces insertPiece (some [])).offered_run turns)

variable (turns : List (QueueTurn LogEvent))

/-- Of every accepted event the logger prints its line, once and in the order of the calls:
at any moment it lacks what is queued and the end of one line at most, and a `stop` that
ended the thread leaves nothing behind and every call accepted or counted as dropped. -/
theorem logger_prints_accepted
    (terminated : ∀ event ∈ AsyncLogger.init.begun turns, event.Terminated) :
    let s := AsyncLogger.init.run turns
    (s.queue.accepted.Sublist (AsyncLogger.init.begun turns) ∧
      s.queue.popped.length + s.queue.ring.queued = s.queue.accepted.length ∧
      ∃ printed inHand begun, s.queue.popped = printed ++ inHand ∧ inHand.length ≤ 1 ∧
        s.queue.popped <+: s.queue.accepted ∧
        s.state = some (printed.flatMap LogEvent.line ++ begun) ∧
        begun <+: inHand.flatMap LogEvent.line) ∧
    ∀ call, s.owner = .stopJoin → (s.ownerStep call).owner = .idle →
      (s.ownerStep call).state = some (s.queue.accepted.flatMap LogEvent.line) ∧
      s.queue.ring.queued = 0 ∧ ∃ drops, s.queue.ring.dropped = drops % 2 ^ 64 ∧
        drops + s.queue.accepted.length = s.queue.completedPushes := by
  intro s
  have inv : DrainInv linePieces insertPiece (some []) s := AsyncLogger.inv turns
  have among : s.queue.accepted.Sublist _ := AsyncLogger.accepted_begun turns
  have accepted : ∀ event ∈ s.queue.accepted, event.Terminated := fun event member =>
    terminated event (among.subset member)
  have queued := inv.queue.queued_add
  refine ⟨⟨among, queued, ?_⟩, fun call joining returned => ?_⟩
  · obtain ⟨printed, inHand, made, popped, single, rest, state⟩ := inv.in_hand
    have early : ∀ event ∈ printed ++ inHand, event.Terminated := fun event member =>
      accepted event (inv.queue.fifo.subset (popped ▸ member))
    obtain ⟨texts, pieces, lines⟩ := flatMap_linePieces fun event member =>
      early event (List.mem_append_left _ member)
    obtain ⟨last, lastPieces, line⟩ := flatMap_linePieces fun event member =>
      early event (List.mem_append_right _ member)
    obtain ⟨front, back, rfl, rfl, _⟩ := List.append_eq_map_iff.mp (rest.trans lastPieces)
    refine ⟨printed, inHand, front.flatten, popped, single, inv.queue.fifo, ?_, ?_⟩
    · rw [state, pieces, ← List.map_append, foldl_insertPiece, List.nil_append,
        List.flatten_append, lines]
    · rw [← line, List.flatten_append]
      exact List.prefix_append _ _
  · obtain ⟨after, drained, state, account⟩ :=
      DrainedQueue.stop_returned linePieces insertPiece (some []) turns joining returned
    obtain ⟨texts, pieces, lines⟩ := flatMap_linePieces accepted
    refine ⟨?_, drained, account⟩
    refine (congrArg DrainedQueue.state after).trans (state.trans ?_)
    rw [← List.nil_append (List.flatMap LogEvent.line _), ← lines, ← foldl_insertPiece, ← pieces]
    rfl

/-- A `stop` that cleared the flag can return after 28672 turns of the thread at the
latest, whatever was logged before and whoever else was given turns; all that was accepted
is printed then. -/
theorem logger_stop_returns {more : List (QueueTurn LogEvent)}
    (joining : (AsyncLogger.init.run turns).owner = .stopJoin)
    (enough : 28672 ≤ more.countP QueueTurn.isThread)
    (terminated : ∀ event ∈ AsyncLogger.init.begun turns, event.Terminated) :
    ∃ before after, more = before ++ after ∧
      let s := AsyncLogger.init.run (turns ++ before)
      s.owner = .stopJoin ∧ ∀ call, (s.ownerStep call).owner = .idle ∧
        (s.ownerStep call).state =
          some ((AsyncLogger.init.run turns).queue.accepted.flatMap LogEvent.line) := by
  have short : ∀ event, (linePieces event).length ≤ 7 := fun _ => le_rfl
  have inv := AsyncLogger.inv turns
  obtain ⟨before, after, eq, still, ended, kept⟩ := inv.thread_finishes joining
    ((inv.work_le short).trans enough)
  have moved : AsyncLogger.init.run (turns ++ before) =
      (AsyncLogger.init.run turns).run before := List.foldl_append
  refine ⟨before, after, eq, ?_⟩
  intro s
  have still : s.owner = .stopJoin := by rw [show s = _ from moved]; exact still
  have ended : s.thread = .finished := by rw [show s = _ from moved]; exact ended
  have kept : s.queue.accepted = (AsyncLogger.init.run turns).queue.accepted := by
    rw [show s = _ from moved]
    exact kept
  have terminated : ∀ event ∈ s.queue.accepted, event.Terminated := fun event member =>
    terminated event ((AsyncLogger.accepted_begun turns).subset (kept ▸ member))
  obtain ⟨texts, pieces, lines⟩ := flatMap_linePieces terminated
  have state := ((AsyncLogger.inv (turns ++ before)).finished_state ended).2
  refine ⟨still, fun call => ?_⟩
  rw [ownerStep_joined still ended]
  refine ⟨rfl, ?_⟩
  show s.state = _
  rw [← kept, ← lines]
  refine state.trans ?_
  rw [show (AsyncLogger.init.run (turns ++ before)).queue.accepted.flatMap linePieces = _ from
    pieces, foldl_insertPiece, List.nil_append]

/-- What is printed when a `stop` returns decodes to the accepted events if and only if
nothing in them needs an escape. -/
theorem stopped_log_decodes_iff (ascii : ∀ event ∈ AsyncLogger.init.begun turns, event.Ascii)
    {call : QueueCall LogEvent} (joining : (AsyncLogger.init.run turns).owner = .stopJoin)
    (returned : ((AsyncLogger.init.run turns).ownerStep call).owner = .idle) :
    let s := (AsyncLogger.init.run turns).ownerStep call
    (∃ output, s.state = some output ∧ DecodesToEvents output s.queue.accepted) ↔
      ∀ event ∈ s.queue.accepted, Unescaped event.tagText event.messageText := by
  have gone := finished_of_returned joining returned
  have state := ((AsyncLogger.inv turns).finished_state gone).2
  rw [ownerStep_joined joining gone]
  show (∃ output, (AsyncLogger.init.run turns).state = some output ∧ DecodesToEvents output
    (AsyncLogger.init.run turns).queue.accepted) ↔ _
  generalize events : (AsyncLogger.init.run turns).queue.accepted = accepted at state ⊢
  have accepted_ascii : ∀ event ∈ accepted, event.Ascii := fun event member =>
    ascii event ((AsyncLogger.accepted_begun turns).subset (events ▸ member))
  obtain ⟨texts, pieces, lines⟩ := flatMap_linePieces fun event member =>
    (accepted_ascii event member).terminated
  have printed : (AsyncLogger.init.run turns).state = drain [] accepted := by
    refine state.trans ?_
    rw [pieces, foldl_insertPiece, lines, List.nil_append]
    exact Eq.symm (drain_eq accepted_ascii)
  rw [printed]
  exact log_output_decodes_iff [] accepted accepted_ascii

end Runs

section Started

/-- An event logged before `start`; the thread sees the flag only when it is already
cleared. -/
def startedTurns : List (QueueTurn LogEvent) :=
  List.replicate 5 (.owner (.push startedEvent)) ++ List.replicate 3 (.owner .start) ++
    List.replicate 2 (.owner .stop)

theorem startedTurns_begun (n : Nat) :
    AsyncLogger.init.begun (startedTurns ++ List.replicate n .thread) = [startedEvent] := by
  refine (DrainedQueue.begun_append _ _ _).trans ?_
  rw [DrainedQueue.begun_threads, List.append_nil]
  rfl

theorem startedTurns_ascii (n : Nat) :
    ∀ event ∈ AsyncLogger.init.begun (startedTurns ++ List.replicate n .thread), event.Ascii := by
  intro event member
  rw [startedTurns_begun] at member
  rw [List.mem_singleton.mp member]
  exact ⟨⟨asciiBytes "rt".toList, by decide +kernel, by decide⟩,
    ⟨asciiBytes "started".toList, by decide +kernel, by decide⟩⟩

theorem logger_prints_accepted_started :
    let s := AsyncLogger.init.run (startedTurns ++ List.replicate 15 .thread)
    s.owner = .stopJoin ∧ (s.ownerStep .stop).owner = .idle ∧
      (s.ownerStep .stop).state = some (s.queue.accepted.flatMap LogEvent.line) := by
  refine ⟨rfl, rfl, ?_⟩
  exact ((logger_prints_accepted _ fun event member =>
    (startedTurns_ascii 15 event member).terminated).2 .stop rfl rfl).1

theorem logger_stop_returns_started :
    ∃ before after, List.replicate 28672 .thread = before ++ after ∧
      let s := AsyncLogger.init.run (startedTurns ++ List.replicate 0 .thread ++ before)
      s.owner = .stopJoin ∧ ∀ call, (s.ownerStep call).owner = .idle ∧
        (s.ownerStep call).state = some ((AsyncLogger.init.run
          (startedTurns ++ List.replicate 0 .thread)).queue.accepted.flatMap LogEvent.line) :=
  logger_stop_returns _ rfl (by rw [List.countP_replicate]; exact le_rfl)
    fun event member => (startedTurns_ascii 0 event member).terminated

theorem stopped_log_decodes_iff_started :
    let s := (AsyncLogger.init.run (startedTurns ++ List.replicate 15 .thread)).ownerStep .stop
    (∃ output, s.state = some output ∧ DecodesToEvents output s.queue.accepted) ↔
      ∀ event ∈ s.queue.accepted, Unescaped event.tagText event.messageText :=
  stopped_log_decodes_iff _ (startedTurns_ascii 15) rfl rfl

end Started

end NeuroKinetic
