import NeuroKinetic.PublishedFrames
import NeuroKinetic.TelemetryFrames

open Binary32 RidgeProjection

namespace NeuroKinetic

section Words

variable {ι K : Type} {P : TelemetryField → Word K → Prop}

/-- A property of the single words, which a torn copy has as well as a whole one. -/
def WordsHold (P : TelemetryField → Word K → Prop) (words : TelemetryField → Word K) : Prop :=
  ∀ f, f ≠ .seq → P f (words f)

def PublishPc.Holds (P : TelemetryField → Word K → Prop) : PublishPc K → Prop
  | .idle => True
  | .storeOdd frame _ | .storeField frame _ _ => WordsHold P frame.word

def SlicePc.Holds (P : TelemetryField → Word K → Prop) : SlicePc K → Prop
  | .loadField _ raw _ => WordsHold P raw
  | _ => True

structure WordsKept [Field K] (P : TelemetryField → Word K → Prop) (s : TelemetryLink ι K) :
    Prop where
  slot : WordsHold P s.slot
  daemon : s.daemon.Holds P
  readers : ∀ client, (s.readers client).pc.Holds P
  returned : ∀ r ∈ s.returned, r = emptyReading ∨
    ∃ raw, WordsHold P raw ∧ r = (TelemetrySlot.ofWords raw).reading

theorem WordsHold.update {words : TelemetryField → Word K} (h : WordsHold P words)
    {f : TelemetryField} {w : Word K} (new : f ≠ .seq → P f w) :
    WordsHold P (Function.update words f w) := by
  intro g notSeq
  by_cases same : g = f
  · subst same
    rw [Function.update_self]
    exact new notSeq
  · rw [Function.update_of_ne same]
    exact h g notSeq

theorem WordsHold.setSeq {words : TelemetryField → Word K} (h : WordsHold P words) (w : Word K) :
    WordsHold P (Function.update words .seq w) := h.update fun notSeq => absurd rfl notSeq

variable [Field K]

theorem WordsKept.daemonStep {s : TelemetryLink ι K} (h : WordsKept P s)
    {frame : TelemetrySlot K} (words : WordsHold P frame.word) : WordsKept P (s.daemonStep frame) := by
  obtain ⟨slot, heartbeat, daemon, readers, published, returned⟩ := s
  have held := h.daemon
  cases daemon with
  | idle => exact ⟨h.slot, words, h.readers, h.returned⟩
  | storeOdd frame currentSeq => exact ⟨h.slot.setSeq _, held, h.readers, h.returned⟩
  | storeField frame currentSeq pending =>
    cases pending with
    | cons f rest => exact ⟨h.slot.update (held f), held, h.readers, h.returned⟩
    | nil => exact ⟨h.slot.setSeq _, trivial, h.readers, h.returned⟩

theorem wordsKept_start (start : WordsHold P (initialTelemetry (K := K)).word) :
    WordsKept P (TelemetryLink.start : TelemetryLink ι K) :=
  ⟨start, trivial, fun _ => trivial, fun _ member => absurd member List.not_mem_nil⟩

variable [DecidableEq ι]

theorem WordsKept.setReader {s : TelemetryLink ι K} (h : WordsKept P s) (client : ι)
    (heartbeat counter : Nat) {pc : SlicePc K} (held : pc.Holds P) :
    WordsKept P { s with
      heartbeatPython := heartbeat
      readers := Function.update s.readers client ⟨counter, pc⟩ } := by
  refine ⟨h.slot, h.daemon, fun other => ?_, h.returned⟩
  by_cases same : other = client
  · rw [same]
    simp only [Function.update_self]
    exact held
  · simp only [Function.update_of_ne same]
    exact h.readers other

omit [DecidableEq ι] in
theorem WordsKept.return {s : TelemetryLink ι K} (h : WordsKept P s) {r : TelemetryReading K}
    (sound : r = emptyReading ∨
      ∃ raw, WordsHold P raw ∧ r = (TelemetrySlot.ofWords raw).reading) :
    WordsKept P { s with returned := s.returned ++ [r] } := by
  refine ⟨h.slot, h.daemon, h.readers, fun other member => ?_⟩
  rcases List.mem_append.mp member with member | member
  · exact h.returned other member
  · obtain rfl := List.mem_singleton.mp member
    exact sound

theorem WordsKept.readerStep {s : TelemetryLink ι K} (h : WordsKept P s) (start :
    WordsHold P (initialTelemetry (K := K)).word) (client : ι) : WordsKept P (s.readerStep client) := by
  have held := h.readers client
  unfold TelemetryLink.readerStep
  split
  next =>
    dsimp only
    split
    next => exact h.setReader client _ _ trivial
    next => exact h.setReader client s.heartbeatPython _ trivial
  next attempts pc => exact h.setReader client s.heartbeatPython _ (start.setSeq _)
  next attempts raw f rest pc =>
    rw [pc] at held
    exact h.setReader client s.heartbeatPython _ (held.update (h.slot f))
  next attempts raw pc =>
    rw [pc] at held
    split
    next =>
      exact (h.setReader client s.heartbeatPython _ (show SlicePc.Holds P .idle from trivial)).return
        (Or.inr ⟨raw, held, rfl⟩)
    next =>
      split
      next =>
        exact (h.setReader client s.heartbeatPython _
          (show SlicePc.Holds P .idle from trivial)).return (Or.inl rfl)
      next => exact h.setReader client s.heartbeatPython _ trivial

/-- Whatever the interleaving, torn reads included, a client sees nothing but words
of the frames that the daemon publishes. -/
theorem WordsKept.run {s : TelemetryLink ι K} (h : WordsKept P s)
    (start : WordsHold P (initialTelemetry (K := K)).word) {turns : List (TelemetryTurn ι K)}
    (frames : ∀ frame, .daemon frame ∈ turns → WordsHold P frame.word) :
    WordsKept P (s.run turns) := by
  refine List.foldlRecOn (motive := WordsKept P) turns _ h fun s inv turn member => ?_
  cases turn with
  | daemon frame => exact inv.daemonStep (frames frame member)
  | reader client => exact inv.readerStep start client

end Words

section Frames

variable {K : Type} [Field K] [LinearOrder K] [FloorRing K]

/-- What any frame of a run holds in the word of a field. -/
def WordReports : TelemetryField → Word K → Prop
  | .jointPosition _, w => ∃ x, w = .float (.fin x)
  | .jointVelocity _, w => ∃ v, w = .float (.fin v) ∧ |v| ≤ 0.852783203125
  | .appliedTorque _, w => ∃ t, w = .float (.fin t) ∧ |t| ≤ 87.000244140625
  | .barrierMargin, w => ∃ m, w = .float (.fin m) ∧
    (m = 0 ∨ m = 100 ∨ -0.375 ≤ m ∧ m ≤ -0.015625)
  | _, _ => True

variable [SquareRoot K] [ExactSolver K]

/-- A frame that some tick of a run publishes. -/
def FrameOf (now : Int) (run : List (RecordedInput K)) (frame : TelemetrySlot K) : Prop :=
  ∃ before observed later, run = before ++ observed :: later ∧
    frame = publishedFrame 0 observed.systemClock (tick daemonObstacles
      (runTicks daemonObstacles (daemonStart now) (before.map RecordedInput.input)) observed.input)

variable [IsStrictOrderedRing K]

omit [SquareRoot K] [ExactSolver K] in
theorem narrow_position {x : K} {n : Nat} (h : |x| ≤ 3 + 0.0018 * n) (short : n ≤ 2 ^ 64) :
    ∃ y, narrow (.fin x) = .fin y := by
  refine narrow_finite (h.trans_lt ?_)
  have below : ((2 ^ 65 : ℕ) : K) < pow2 (127 : ℕ) := natCast_lt_pow2 (by norm_num)
  have ticks : (n : K) ≤ ((2 ^ 64 : ℕ) : K) := Nat.cast_le.mpr short
  refine lt_trans ?_ below
  push_cast at ticks ⊢
  linarith

variable [LawfulSquareRoot K]

/-- The words of a run's frame; the positions are those of a run short enough for its own
tick counter. -/
theorem FrameOf.words {now : Int} {run : List (RecordedInput K)} {frame : TelemetrySlot K}
    (h : FrameOf now run frame) (short : run.length ≤ 2 ^ 64) :
    WordsHold WordReports frame.word := by
  obtain ⟨before, observed, later, rfl, rfl⟩ := h
  have within : ∀ i, |(![0, 0.2, 0, -1.2, 0, 2.80, 0] : Fin DOF → K) i| ≤ 3 := by
    intro i
    rw [abs_le]
    fin_cases i <;> norm_num
  obtain ⟨q, qDot, slow, position⟩ := runTicks_slow_within daemonObstacles
    (daemonStart_slow now) within ((before ++ [observed]).map RecordedInput.input)
  obtain ⟨q', qDot', slow'⟩ : ∃ q qDot, PlantSlow (runTicks daemonObstacles (daemonStart now)
      (before.map RecordedInput.input) : DaemonState K) q qDot :=
    runTicks_slow (daemonStart_slow now) _
  have reports := frameReports_tick slow' (runTicks_endEffector _ _ _) observed.input 0
    observed.systemClock
  rw [List.map_append, runTicks, List.foldl_append] at slow
  intro f _
  cases f with
  | jointPosition i =>
    have length : ((before ++ [observed]).map RecordedInput.input).length ≤ 2 ^ 64 := by
      simp only [List.length_append, List.length_cons, List.length_nil, List.length_map] at short ⊢
      omega
    obtain ⟨y, narrowed⟩ := narrow_position (position i) length
    refine ⟨y, ?_⟩
    simp only [TelemetrySlot.word, publishedFrame]
    rw [← narrowed, ← congrFun slow.plant.position i]
    rfl
  | jointVelocity i =>
    obtain ⟨v, reported, bound⟩ := reports.velocity i
    exact ⟨v, congrArg Word.float reported, bound⟩
  | appliedTorque i =>
    obtain ⟨t, reported, bound⟩ := reports.torque i
    exact ⟨t, congrArg Word.float reported, bound⟩
  | barrierMargin =>
    by_cases refused : CommandRefused (runTicks daemonObstacles (daemonStart now)
        (before.map RecordedInput.input)) observed.input
    · exact ⟨0, congrArg Word.float (reports.refused refused).2.2.1, Or.inl rfl⟩
    · by_cases unordered : observed.input.command.UnorderedMargin
      · exact ⟨100, congrArg Word.float (reports.unordered refused unordered), Or.inr (Or.inl rfl)⟩
      · obtain ⟨m, reported, bounds⟩ := reports.margin refused unordered
        exact ⟨m, congrArg Word.float reported, Or.inr (Or.inr bounds)⟩
  | _ => trivial

omit [SquareRoot K] [LawfulSquareRoot K] [ExactSolver K] [FloorRing K] in
theorem wordReports_initial : WordsHold WordReports (initialTelemetry (K := K)).word := by
  intro f _
  cases f with
  | jointPosition i => exact ⟨0, rfl⟩
  | jointVelocity i => exact ⟨0, rfl, by rw [abs_zero]; norm_num⟩
  | appliedTorque i => exact ⟨0, rfl, by rw [abs_zero]; norm_num⟩
  | barrierMargin => exact ⟨0, rfl, Or.inl rfl⟩
  | _ => trivial

end Frames

section Readings

variable {ι K : Type} [DecidableEq ι] [Field K] [LinearOrder K] [IsStrictOrderedRing K]
  [FloorRing K] [SquareRoot K] [LawfulSquareRoot K] [ExactSolver K]

/-- Every array of a dictionary holds numbers, its torques within the ceiling and its
velocities within the daemon's own top speed. -/
structure ReadingBounds (r : TelemetryReading K) : Prop where
  positions : ∀ i, ∃ x, r.positions i = .fin x
  velocities : ∀ i, ∃ v, r.velocities i = .fin v ∧ |v| ≤ 0.852783203125
  torques : ∀ i, ∃ t, r.torques i = .fin t ∧ |t| ≤ 87.000244140625
  barrierMargin : ∃ m, r.barrierMargin = .fin m ∧ (m = 0 ∨ m = 100 ∨ -0.375 ≤ m ∧ m ≤ -0.015625)

omit [FloorRing K] [SquareRoot K] [LawfulSquareRoot K] [ExactSolver K] in
theorem readingBounds_empty : ReadingBounds (emptyReading : TelemetryReading K) := by
  refine ⟨fun i => ⟨0, rfl⟩, fun i => ⟨0, rfl, ?_⟩, fun i => ⟨0, rfl, ?_⟩, 0, rfl, Or.inl rfl⟩
  · rw [abs_zero]
    norm_num
  · rw [abs_zero]
    norm_num

omit [FloorRing K] [IsStrictOrderedRing K] [SquareRoot K] [LawfulSquareRoot K] [ExactSolver K] in
theorem WordsHold.readingBounds {raw : TelemetryField → Word K} (words : WordsHold WordReports raw) :
    ReadingBounds (TelemetrySlot.ofWords raw).reading := by
  refine ⟨fun i => ?_, fun i => ?_, fun i => ?_, ?_⟩
  · obtain ⟨x, loaded⟩ := words (.jointPosition i) (by simp)
    exact ⟨x, congrArg Word.toFloat loaded⟩
  · obtain ⟨v, loaded, bound⟩ := words (.jointVelocity i) (by simp)
    exact ⟨v, congrArg Word.toFloat loaded, bound⟩
  · obtain ⟨t, loaded, bound⟩ := words (.appliedTorque i) (by simp)
    exact ⟨t, congrArg Word.toFloat loaded, bound⟩
  · obtain ⟨m, loaded, bounds⟩ := words .barrierMargin (by simp)
    exact ⟨m, congrArg Word.toFloat loaded, bounds⟩

omit [DecidableEq ι] [FloorRing K] [SquareRoot K] [LawfulSquareRoot K] [ExactSolver K] in
theorem WordsKept.readingBounds {s : TelemetryLink ι K} (h : WordsKept WordReports s)
    {r : TelemetryReading K} (member : r ∈ s.returned) : ReadingBounds r := by
  rcases h.returned r member with rfl | ⟨raw, words, rfl⟩
  · exact readingBounds_empty
  · exact words.readingBounds

/-- Beside a running daemon the slot and every copy of it hold words of the run's frames. -/
theorem daemon_wordsKept (now : Int) {run : List (RecordedInput K)} (short : run.length ≤ 2 ^ 64)
    {turns : List (TelemetryTurn ι K)}
    (frames : ∀ frame, .daemon frame ∈ turns → FrameOf now run frame) :
    WordsKept WordReports (TelemetryLink.start.run turns) :=
  (wordsKept_start wordReports_initial).run wordReports_initial
    fun frame member => (frames frame member).words short

/-- What clients can rely on in the dictionaries of `read_telemetry` beside a running daemon,
torn or not. -/
theorem readings_bounded (now : Int) {run : List (RecordedInput K)} (short : run.length ≤ 2 ^ 64)
    {turns : List (TelemetryTurn ι K)}
    (frames : ∀ frame, .daemon frame ∈ turns → FrameOf now run frame) :
    ∀ r ∈ (TelemetryLink.start.run turns).returned, ReadingBounds r :=
  fun _ member => (daemon_wordsKept now short frames).readingBounds member

noncomputable def refusedFrame : TelemetrySlot ℝ :=
  publishedFrame 0 0 (tick daemonObstacles (daemonStart 0) refusedCommand.input)

theorem refusedFrame_of : FrameOf 0 [refusedCommand] refusedFrame := ⟨[], refusedCommand, [], rfl, rfl⟩

/-- One publication, and then a whole read. -/
noncomputable def refusedReading : List (TelemetryTurn Unit ℝ) :=
  List.replicate 29 (.daemon refusedFrame) ++ List.replicate 29 (.reader ())

theorem refusedReading_frames :
    ∀ frame, .daemon frame ∈ refusedReading → FrameOf 0 [refusedCommand] frame := by
  intro frame member
  have published : frame = refusedFrame := by
    simpa [refusedReading] using member
  rw [published]
  exact refusedFrame_of

theorem refusedReading_returned :
    (TelemetryLink.start.run refusedReading).returned.length = 1 := by
  decide +kernel

theorem readings_bounded_refused :
    (TelemetryLink.start.run refusedReading).returned.length = 1 ∧
      ∀ r ∈ (TelemetryLink.start.run refusedReading).returned, ReadingBounds r :=
  ⟨refusedReading_returned,
    readings_bounded 0 (show [refusedCommand].length ≤ 2 ^ 64 by norm_num) refusedReading_frames⟩

end Readings

end NeuroKinetic
