import Mathlib.Data.List.Perm.Basic
import NeuroKinetic.FlightRecorder

open OrderedStore

namespace NeuroKinetic

/-- What the report has of one entry. -/
structure Incident where
  key : List UInt8
  record : InterventionRecord
  deriving DecidableEq

/-- The reverse iteration: a value of another size is passed over and not counted. -/
def scanIncidents : List (List UInt8 × List UInt8) → Nat → List Incident
  | [], _ => []
  | (key, value) :: rest, count =>
    if count < 50 then
      if value.length = sizeofInterventionRecord then
        ⟨key, InterventionRecord.ofBytes value⟩ :: scanIncidents rest (count + 1)
      else scanIncidents rest count
    else []

def readIncidents (cf : ColumnFamily) : List Incident := scanIncidents (backwards cf) 0

def InterventionRecord.incident (r : InterventionRecord) : Incident :=
  ⟨interventionKey r.timestampNs, r⟩

def InterventionRecord.entry (r : InterventionRecord) : List UInt8 × List UInt8 :=
  (interventionKey r.timestampNs, r.toBytes)

section Scan

theorem scanIncidents_entries (records : List InterventionRecord) (count : Nat) :
    scanIncidents (records.map InterventionRecord.entry) count =
      (records.take (50 - count)).map InterventionRecord.incident := by
  induction records generalizing count with
  | nil => simp [scanIncidents]
  | cons r rest ih =>
    by_cases more : count < 50
    · have room : 50 - count = (50 - (count + 1)) + 1 := by omega
      rw [List.map_cons, InterventionRecord.entry, scanIncidents, if_pos more,
        if_pos r.length_toBytes, ih, room, List.take_succ_cons, List.map_cons,
        InterventionRecord.ofBytes_toBytes, InterventionRecord.incident]
    · have full : 50 - count = 0 := by omega
      rw [List.map_cons, InterventionRecord.entry, scanIncidents, if_neg more, full,
        List.take_zero, List.map_nil]

end Scan

section Written

/-- The entries that a log of incidents leaves under its keys. -/
def writtenEntries (cf : ColumnFamily) (records : List InterventionRecord) :
    List (List UInt8 × List UInt8) :=
  written (fun r : InterventionRecord => interventionKey r.timestampNs) cf records

def InterventionRecord.Newer (a b : InterventionRecord) : Prop :=
  b.timestampNs.toNat < a.timestampNs.toNat

variable {cf after : ColumnFamily} {records : List InterventionRecord}

theorem keys_nodup (distinct : (records.map InterventionRecord.timestampNs).Nodup) :
    (records.map fun r => interventionKey r.timestampNs).Nodup := by
  have keys := distinct.map fun _ _ => interventionKey_injective
  rwa [List.map_map] at keys

theorem logAll_put (logged : FlightRecorder.logAll ⟨some cf⟩ records = ⟨some after⟩) :
    after = putAll (fun r => interventionKey r.timestampNs) InterventionRecord.toBytes cf
      records := by
  rw [FlightRecorder.logAll_eq, FlightRecorder.mk.injEq, Option.some_inj] at logged
  exact logged.symm

theorem exists_entries {entries : List (List UInt8 × List UInt8)}
    (source : ∀ entry ∈ entries, ∃ r ∈ records, entry = r.entry) :
    ∃ sorted : List InterventionRecord, entries = sorted.map InterventionRecord.entry ∧
      ∀ r ∈ sorted, r ∈ records := by
  induction entries with
  | nil => exact ⟨[], rfl, by simp⟩
  | cons entry rest ih =>
    obtain ⟨r, present, eq⟩ := source entry List.mem_cons_self
    obtain ⟨sorted, same, among⟩ := ih fun e member => source e (List.mem_cons_of_mem _ member)
    refine ⟨r :: sorted, by rw [List.map_cons, eq, same], fun s member => ?_⟩
    rcases List.mem_cons.mp member with rfl | later
    · exact present
    · exact among s later

theorem entry_injective {a b : InterventionRecord} (h : a.entry = b.entry) : a = b := by
  have payload : a.toBytes = b.toBytes := congrArg Prod.snd h
  rw [← a.ofBytes_toBytes, payload, InterventionRecord.ofBytes_toBytes]

/-- They are entries of logged records, the newest one first, one for each timestamp. -/
theorem exists_written (logged : FlightRecorder.logAll ⟨some cf⟩ records = ⟨some after⟩) :
    ∃ sorted : List InterventionRecord,
      writtenEntries after records = sorted.map InterventionRecord.entry ∧
        (∀ r ∈ sorted, r ∈ records) ∧ sorted.Pairwise InterventionRecord.Newer ∧
        (sorted.map InterventionRecord.timestampNs).Perm
          (records.map InterventionRecord.timestampNs).dedup := by
  have put := logAll_put logged
  have source : ∀ entry ∈ writtenEntries after records, ∃ r ∈ records, entry = r.entry := by
    intro entry member
    rw [put] at member
    exact mem_written _ _ cf member
  obtain ⟨sorted, entries, among⟩ := exists_entries source
  have decreasing : (writtenEntries after records).Pairwise fun a b => compare b.1 a.1 = .lt :=
    written_decreasing _ after records
  have keys : ((writtenEntries after records).map Prod.fst).Perm
      (records.map fun r => interventionKey r.timestampNs).dedup := by
    rw [put]
    exact written_keys_perm _ _ cf records
  refine ⟨sorted, entries, among, ?_, ?_⟩
  · rw [entries, List.pairwise_map] at decreasing
    refine decreasing.imp fun {a b} newer => ?_
    rw [InterventionRecord.entry, InterventionRecord.entry, compare_interventionKey] at newer
    exact Nat.compare_eq_lt.mp newer
  · have timestamps : (writtenEntries after records).map Prod.fst =
        (sorted.map InterventionRecord.timestampNs).map interventionKey := by
      rw [entries, List.map_map, List.map_map]
      rfl
    have logged : (records.map fun r => interventionKey r.timestampNs).dedup =
        (records.map InterventionRecord.timestampNs).dedup.map interventionKey := by
      rw [← List.dedup_map_of_injective fun _ _ => interventionKey_injective, List.map_map]
      rfl
    rw [timestamps, logged] at keys
    exact (List.map_perm_map_iff fun _ _ => interventionKey_injective).mp keys

/-- A log of distinct timestamps is kept whole. -/
theorem perm_of_nodup {sorted : List InterventionRecord}
    (logged : FlightRecorder.logAll ⟨some cf⟩ records = ⟨some after⟩)
    (entries : writtenEntries after records = sorted.map InterventionRecord.entry)
    (distinct : (records.map InterventionRecord.timestampNs).Nodup) : sorted.Perm records := by
  have kept := written_perm _ InterventionRecord.toBytes cf (keys_nodup distinct)
  rw [← logAll_put logged] at kept
  have same : (sorted.map InterventionRecord.entry).Perm (records.map InterventionRecord.entry) :=
    entries ▸ kept
  exact (List.map_perm_map_iff fun _ _ => entry_injective).mp same

/-- The reader of a store that was empty visits the newest 50 of its records. -/
theorem exists_visited (logged : FlightRecorder.logAll ⟨some ∅⟩ records = ⟨some after⟩) :
    ∃ sorted : List InterventionRecord,
      writtenEntries after records = sorted.map InterventionRecord.entry ∧
        (∀ r ∈ sorted, r ∈ records) ∧ sorted.Pairwise InterventionRecord.Newer ∧
        readIncidents after = (sorted.take 50).map InterventionRecord.incident := by
  obtain ⟨sorted, entries, among, newer, _⟩ := exists_written logged
  have all : writtenEntries after records = backwards after := by
    rw [logAll_put logged]
    exact written_of_empty _ _ records
  refine ⟨sorted, entries, among, newer, ?_⟩
  rw [readIncidents, ← all, entries, scanIncidents_entries]

theorem visited_singleton {r : InterventionRecord}
    (logged : FlightRecorder.logAll ⟨some ∅⟩ [r] = ⟨some after⟩) :
    readIncidents after = [r.incident] := by
  obtain ⟨sorted, entries, _, _, visited⟩ := exists_visited logged
  have perm := perm_of_nodup logged entries (List.nodup_singleton _)
  rw [visited, List.perm_singleton.mp perm]
  rfl

end Written

/-- The newest 50 of any log of distinct timestamps are read back, field for field. -/
theorem incident_log_round_trip (records : List InterventionRecord)
    (distinct : (records.map InterventionRecord.timestampNs).Nodup) :
    (∀ a b : BitVec 64,
      compare (interventionKey a) (interventionKey b) = compare a.toNat b.toNat) ∧
    ∃ cf, FlightRecorder.logAll ⟨some ∅⟩ records = ⟨some cf⟩ ∧
      let visited := readIncidents cf
      visited.length = min records.length 50 ∧
        (visited.Pairwise fun newer older =>
          older.record.timestampNs.toNat < newer.record.timestampNs.toNat) ∧
        (∀ i ∈ visited, ∃ r ∈ records, i = r.incident) ∧
        ∀ r ∈ records, r.incident ∈ visited ∨
          ∀ i ∈ visited, r.timestampNs.toNat < i.record.timestampNs.toNat := by
  have logged := FlightRecorder.logAll_eq ∅ records
  obtain ⟨sorted, entries, _, newer, visited⟩ := exists_visited logged
  have perm := perm_of_nodup logged entries distinct
  refine ⟨compare_interventionKey, _, logged, ?_⟩
  simp only [visited]
  refine ⟨?_, ?_, ?_, ?_⟩
  · rw [List.length_map, List.length_take, perm.length_eq, Nat.min_comm]
  · rw [List.pairwise_map]
    exact newer.take
  · intro i member
    obtain ⟨r, inside, rfl⟩ := List.mem_map.mp member
    exact ⟨r, perm.mem_iff.mp (List.mem_of_mem_take inside), rfl⟩
  · intro r present
    have parts : r ∈ sorted.take 50 ++ sorted.drop 50 := by
      rw [List.take_append_drop]
      exact perm.mem_iff.mpr present
    rcases List.mem_append.mp parts with inside | older
    · exact Or.inl (List.mem_map_of_mem inside)
    · right
      intro i member
      obtain ⟨kept, inside, rfl⟩ := List.mem_map.mp member
      rw [← List.take_append_drop 50 sorted, List.pairwise_append] at newer
      exact newer.2.2 kept inside r older

/-- A record of the greatest timestamp, logged before one of the least. -/
theorem incident_log_round_trip_extremes :
    let records : List InterventionRecord :=
      [⟨0, BitVec.allOnes 64, 0, 0, 0, 1⟩, ⟨1, 0, 0, 0, 0, 2⟩]
    ∃ cf, FlightRecorder.logAll ⟨some ∅⟩ records = ⟨some cf⟩ ∧ (readIncidents cf).length = 2 := by
  intro records
  obtain ⟨_, cf, logged, length, _⟩ := incident_log_round_trip records (by decide)
  exact ⟨cf, logged, length⟩

end NeuroKinetic
