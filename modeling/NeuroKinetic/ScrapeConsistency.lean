import NeuroKinetic.ScrapeRuns

open InterleavedReads

namespace NeuroKinetic

section OpenRecord

variable {K : Type}

/-- After an access: 1 from a frame's sample on until its bucket, else 0. -/
def openStep (opened : Nat) : MetricUpdate K → Nat
  | .sample => 1
  | .bucket _ => 0
  | _ => opened

/-- The records that are counted and not yet in a bucket. -/
def openRecord (history : List (MetricUpdate K)) : Nat := history.foldl openStep 0

/-- Each access keeps the account of what is counted, placed and open. -/
def Orderly (opened : Nat) : List (MetricUpdate K) → Prop
  | [] => True
  | update :: rest =>
    opened + update.samples = ∑ b, update.inBucket b + openStep opened update ∧
      Orderly (openStep opened update) rest

theorem orderly_append {opened : Nat} {first second : List (MetricUpdate K)} :
    Orderly opened (first ++ second) ↔
      Orderly opened first ∧ Orderly (first.foldl openStep opened) second := by
  induction first generalizing opened with
  | nil => simp only [List.nil_append, Orderly, List.foldl_nil, true_and]
  | cons update rest ih =>
    rw [List.cons_append, Orderly, Orderly, ih, and_assoc, List.foldl_cons]

theorem Orderly.account {opened : Nat} {history : List (MetricUpdate K)}
    (h : Orderly opened history) :
    opened + (history.map MetricUpdate.samples).sum =
      ∑ b, bucketTotal b history + history.foldl openStep opened := by
  induction history generalizing opened with
  | nil => simp [bucketTotal]
  | cons update rest ih =>
    have later := ih h.2
    have here := h.1
    have split : ∑ b, bucketTotal b (update :: rest) =
        ∑ b, update.inBucket b + ∑ b, bucketTotal b rest := Finset.sum_add_distrib
    rw [split, List.map_cons, List.sum_cons, List.foldl_cons]
    omega

variable [Field K] [LinearOrder K] [FloorSemiring K] [RoundedMul K]

/-- `record` counts its frame, and then places it. -/
theorem recordUpdates_orderly (frame : KinematicTelemetryFrame K) :
    Orderly 0 (recordUpdates frame) ∧ (recordUpdates frame).foldl openStep 0 = 0 := by
  unfold recordUpdates
  split_ifs <;> simp [Orderly, openStep, MetricUpdate.samples, MetricUpdate.inBucket]

theorem recordAll_orderly (frames : List (KinematicTelemetryFrame K)) :
    Orderly 0 (recordAll frames) := by
  induction frames with
  | nil => trivial
  | cons frame rest ih =>
    obtain ⟨orderly, closed⟩ := recordUpdates_orderly frame
    refine orderly_append.mpr ⟨orderly, ?_⟩
    rw [closed]
    exact ih

/-- Whenever a history of `record` is looked at, all but the open record are placed. -/
theorem samples_account {frames : List (KinematicTelemetryFrame K)}
    {history : List (MetricUpdate K)} (part : history <+: recordAll frames) :
    (history.map MetricUpdate.samples).sum =
      ∑ b, bucketTotal b history + openRecord history := by
  obtain ⟨rest, eq⟩ := part
  have orderly := recordAll_orderly frames
  rw [← eq] at orderly
  have account := (orderly_append.mp orderly).1.account
  rwa [Nat.zero_add] at account

end OpenRecord

section Late

variable {K : Type} [Field K] [LinearOrder K] [FloorSemiring K] [RoundedMul K]

/-- The frames that are placed in a bucket between the load of the count and the bucket's
load for the last line. -/
def latePlaced (r : Run (MetricUpdate K) (Nat × MetricLoad)) (k : Nat) : Nat :=
  ∑ b, bucketTotal b
    ((r.historyAt (k, .bucket 5 b)).drop (r.historyAt (k, .samples)).length)

omit [Field K] [LinearOrder K] [FloorSemiring K] [RoundedMul K] in
theorem bucketTotal_drop {b : Fin 6} {before after : List (MetricUpdate K)}
    (h : before <+: after) :
    bucketTotal b after = bucketTotal b before + bucketTotal b (after.drop before.length) := by
  obtain ⟨rest, rfl⟩ := h
  rw [List.drop_left, bucketTotal, List.map_append, List.sum_append]
  rfl

omit [LinearOrder K] [FloorSemiring K] [RoundedMul K] in
/-- The last line adds up all buckets' totals, each at its own moment. -/
theorem last_line_eq (history : Fin 6 → List (MetricUpdate K)) :
    cumulative (fun b => (recordedAfter (history b)).loopBuckets b) 5 =
      (∑ b, bucketTotal b (history b)) % 2 ^ 64 := by
  have all : Finset.Iic (5 : Fin 6) = Finset.univ := by decide
  have stored : ∀ b, (recordedAfter (history b)).loopBuckets b =
      bucketTotal b (history b) % 2 ^ 64 := fun b => recordedAfter_bucket b (history b)
  have total := cumulative_eq (fun b => (recordedAfter (history b)).loopBuckets b) 5
  rw [all] at total
  simp only [stored] at total ⊢
  rw [total, ← Finset.sum_nat_mod]

/-- A scrape answers as many frames in all buckets as it counts if and only if, between its
loads of the two, exactly the record that was open at the count is placed, modulo the
width of the counters. -/
theorem scrape_consistent_iff (frames : List (KinematicTelemetryFrame K)) (n : Nat)
    (turns : List Turn) {k : Nat} (answered : Answered (scrapeRun frames n turns) k) :
    (scrapeAnswer (scrapeRun frames n turns) k).buckets 5 =
        (scrapeAnswer (scrapeRun frames n turns) k).count ↔
      latePlaced (scrapeRun frames n turns) k ≡
        openRecord ((scrapeRun frames n turns).historyAt (k, .samples)) [MOD 2 ^ 64] := by
  have inv := scrapeRun_inv frames n turns
  have late : ∑ b, bucketTotal b ((scrapeRun frames n turns).historyAt (k, .bucket 5 b)) =
      ∑ b, bucketTotal b ((scrapeRun frames n turns).historyAt (k, .samples)) +
        latePlaced (scrapeRun frames n turns) k := by
    rw [latePlaced, ← Finset.sum_add_distrib]
    refine Finset.sum_congr rfl fun b _ => bucketTotal_drop ?_
    exact history_within answered (samples_before_line 5 b (Fin.le_last b))
  have line : (scrapeAnswer (scrapeRun frames n turns) k).buckets 5 = _ :=
    last_line_eq fun b => (scrapeRun frames n turns).historyAt (k, .bucket 5 b)
  have count : (scrapeAnswer (scrapeRun frames n turns) k).count = _ :=
    recordedAfter_samples ((scrapeRun frames n turns).historyAt (k, .samples))
  rw [samples_account (inv.historyAt_part _)] at count
  rw [line, late, count]
  exact ⟨Nat.ModEq.add_left_cancel' _, Nat.ModEq.add_left _⟩

end Late

section Torn

/-- A scrape that loads the count before a record and the buckets after it. -/
def tornScrape : List Turn :=
  List.replicate 1 .reader ++ List.replicate 9 .writer ++ List.replicate 27 .reader

theorem tornScrape_answered : Answered (scrapeRun [slowFrame] 1 tornScrape) 0 := by
  unfold Answered
  decide +kernel

theorem scrape_consistent_iff_torn :
    (scrapeAnswer (scrapeRun [slowFrame] 1 tornScrape) 0).buckets 5 =
        (scrapeAnswer (scrapeRun [slowFrame] 1 tornScrape) 0).count ↔
      latePlaced (scrapeRun [slowFrame] 1 tornScrape) 0 ≡
        openRecord ((scrapeRun [slowFrame] 1 tornScrape).historyAt (0, .samples)) [MOD 2 ^ 64] :=
  scrape_consistent_iff [slowFrame] 1 tornScrape tornScrape_answered

/-- It answers one frame in all buckets and a count of none. -/
theorem scrape_torn :
    (scrapeAnswer (scrapeRun [slowFrame] 1 tornScrape) 0).buckets 5 = 1 ∧
      (scrapeAnswer (scrapeRun [slowFrame] 1 tornScrape) 0).count = 0 := by
  decide +kernel

end Torn

end NeuroKinetic
