import Mathlib.Data.List.Flatten
import Mathlib.Data.List.Infix
import Mathlib.Data.List.Nodup
import Mathlib.Data.List.Sublists

/-! One writer that makes its updates in order, one reader that makes its loads in
order, and the updates that each load came after. -/

namespace InterleavedReads

/-- Whose step comes next; who has finished idles. -/
inductive Turn where
  | writer
  | reader
  deriving DecidableEq

structure Run (U L : Type) where
  made : List U
  updates : List U
  loads : List L
  seen : List (L × List U)

variable {U L : Type} {updates : List U} {loads : List L}

def Run.start (updates : List U) (loads : List L) : Run U L := ⟨[], updates, loads, []⟩

def Run.step (r : Run U L) : Turn → Run U L
  | .writer =>
    match r.updates with
    | [] => r
    | u :: rest => { r with made := r.made ++ [u], updates := rest }
  | .reader =>
    match r.loads with
    | [] => r
    | l :: rest => { r with loads := rest, seen := r.seen ++ [(l, r.made)] }

def Run.after (r : Run U L) (turns : List Turn) : Run U L := turns.foldl Run.step r

/-- The loads so far are the program's first ones, and saw more and more updates. -/
structure Inv (updates : List U) (loads : List L) (r : Run U L) : Prop where
  updates : r.made ++ r.updates = updates
  loads : r.seen.map Prod.fst ++ r.loads = loads
  made : ∀ e ∈ r.seen, e.2 <+: r.made
  ordered : r.seen.Pairwise fun a b => a.2 <+: b.2

theorem inv_start (updates : List U) (loads : List L) : Inv updates loads (Run.start updates loads) :=
  ⟨rfl, rfl, fun _ member => absurd member List.not_mem_nil, List.Pairwise.nil⟩

theorem Inv.step {r : Run U L} (h : Inv updates loads r) (turn : Turn) :
    Inv updates loads (r.step turn) := by
  obtain ⟨made, pending, unread, seen⟩ := r
  have allUpdates := h.updates
  have allLoads := h.loads
  cases turn with
  | writer =>
    cases pending with
    | nil => exact h
    | cons u rest =>
      refine ⟨?_, allLoads, fun e member => ?_, h.ordered⟩
      · rw [← allUpdates]
        exact List.append_cons made u rest |>.symm
      · exact (h.made e member).trans (List.prefix_append made [u])
  | reader =>
    cases unread with
    | nil => exact h
    | cons l rest =>
      have snoc : ∀ e ∈ seen ++ [(l, made)], e.2 <+: made := by
        intro e member
        rcases List.mem_append.mp member with old | new
        · exact h.made e old
        · rw [List.mem_singleton.mp new]
      refine ⟨allUpdates, ?_, snoc, List.pairwise_append.mpr ⟨h.ordered, ?_, ?_⟩⟩
      · rw [← allLoads]
        simp [Run.step]
      · exact List.pairwise_singleton _ _
      · intro e old last new
        rw [List.mem_singleton.mp new]
        exact h.made e old

theorem Inv.after {r : Run U L} (h : Inv updates loads r) (turns : List Turn) :
    Inv updates loads (r.after turns) :=
  List.foldlRecOn turns Run.step h fun _ inv turn _ => inv.step turn

variable [DecidableEq L]

/-- The updates that a load came after. -/
def Run.historyAt (r : Run U L) (l : L) : List U := (r.seen.lookup l).getD []

theorem lookup_eq_some {seen : List (L × List U)} (nodup : (seen.map Prod.fst).Nodup) {l : L}
    {h : List U} (member : (l, h) ∈ seen) : seen.lookup l = some h := by
  obtain ⟨before, after, rfl⟩ := List.append_of_mem member
  refine List.lookup_eq_some_iff.mpr ⟨before, after, rfl, fun e earlier => ?_⟩
  rw [List.map_append, List.map_cons, List.nodup_append] at nodup
  have apart := nodup.2.2 e.1 (List.mem_map_of_mem earlier) l List.mem_cons_self
  simpa using apart.symm

variable {r : Run U L} {l m : L}

theorem Inv.historyAt_part (h : Inv updates loads r) (l : L) : r.historyAt l <+: updates := by
  rw [Run.historyAt]
  cases found : r.seen.lookup l with
  | none => exact List.nil_prefix
  | some past =>
    have member : (l, past) ∈ r.seen := by
      obtain ⟨before, after, eq, _⟩ := List.lookup_eq_some_iff.mp found
      rw [eq]
      exact List.mem_append_right _ List.mem_cons_self
    rw [← h.updates]
    exact (h.made _ member).trans (List.prefix_append _ _)

omit [DecidableEq L] in
/-- What stands before a made load in the program has been made before it. -/
theorem sublist_of_part {made program : List L} (part : made <+: program) (nodup : program.Nodup)
    (order : [l, m].Sublist program) (last : m ∈ made) : [l, m].Sublist made := by
  obtain ⟨rest, rfl⟩ := part
  have disjoint := (List.nodup_append.mp nodup).2.2
  obtain ⟨front, back, eq, first, second⟩ := List.sublist_append_iff.mp order
  have notLater : m ∉ back := fun member => disjoint m last m (second.subset member) rfl
  cases front with
  | nil =>
    rw [List.nil_append] at eq
    exact absurd (eq ▸ List.mem_cons_of_mem _ List.mem_cons_self) notLater
  | cons a front =>
    cases front with
    | nil =>
      have rest : [m] = back := (List.cons_eq_cons.mp eq).2
      exact absurd (rest ▸ List.mem_cons_self) notLater
    | cons b front =>
      have short := congrArg List.length eq
      simp only [List.length_cons, List.length_append, List.length_nil] at short
      have empty : back = [] := List.length_eq_zero_iff.mp (by omega)
      rw [empty, List.append_nil] at eq
      rwa [eq]

/-- Of two loads, the later one in the program saw what the earlier one saw. -/
theorem Inv.historyAt_mono (h : Inv updates loads r) (nodup : loads.Nodup)
    (order : [l, m].Sublist loads) (made : m ∈ r.seen.map Prod.fst) :
    r.historyAt l <+: r.historyAt m := by
  have part : r.seen.map Prod.fst <+: loads := ⟨r.loads, h.loads⟩
  have keys : (r.seen.map Prod.fst).Nodup := nodup.sublist part.sublist
  obtain ⟨pair, inside, eq⟩ := List.sublist_map_iff.mp (sublist_of_part part nodup order made)
  obtain ⟨a, b, rfl⟩ : ∃ a b, pair = [a, b] := by
    apply List.length_eq_two.mp
    simpa using (congrArg List.length eq).symm
  obtain ⟨rfl, rfl⟩ : l = a.1 ∧ m = b.1 := by simpa using eq
  have first : r.seen.lookup a.1 = some a.2 :=
    lookup_eq_some keys (inside.subset List.mem_cons_self)
  have second : r.seen.lookup b.1 = some b.2 :=
    lookup_eq_some keys (inside.subset (List.mem_cons_of_mem _ List.mem_cons_self))
  rw [Run.historyAt, Run.historyAt, first, second]
  exact List.rel_of_pairwise_cons (h.ordered.sublist inside) List.mem_cons_self

section Rounds

variable {L : Type}

/-- Consecutive readings, each load with the number of its reading. -/
def rounds (loads : List L) (n : ℕ) : List (ℕ × L) :=
  (List.range n).flatMap fun k => loads.map (k, ·)

variable {loads : List L} {n k k' : ℕ} {l m : L}

theorem mem_rounds : (k, l) ∈ rounds loads n ↔ k < n ∧ l ∈ loads := by
  constructor
  · intro member
    obtain ⟨j, inside, found⟩ := List.mem_flatMap.mp member
    obtain ⟨a, load, eq⟩ := List.mem_map.mp found
    cases eq
    exact ⟨List.mem_range.mp inside, load⟩
  · rintro ⟨inside, load⟩
    exact List.mem_flatMap.mpr ⟨k, List.mem_range.mpr inside, List.mem_map_of_mem load⟩

theorem rounds_nodup (nodup : loads.Nodup) (n : ℕ) : (rounds loads n).Nodup := by
  refine List.nodup_flatMap.mpr ⟨fun k _ => ?_, ?_⟩
  · exact nodup.map fun a b same => (Prod.mk.inj same).2
  · refine List.nodup_range.imp fun {k k'} differ => ?_
    intro e first second
    obtain ⟨a, _, rfl⟩ := List.mem_map.mp first
    obtain ⟨b, _, eq⟩ := List.mem_map.mp second
    exact differ (Prod.mk.inj eq).1.symm

theorem within_round (h : k < n) (order : [l, m].Sublist loads) :
    [(k, l), (k, m)].Sublist (rounds loads n) := by
  have one : [k].Sublist (List.range n) := List.singleton_sublist.mpr (List.mem_range.mpr h)
  have part := one.flatMap fun k => loads.map (k, ·)
  rw [List.flatMap_singleton] at part
  exact (order.map (k, ·)).trans part

theorem across_rounds (order : k < k') (h : k' < n) (first : l ∈ loads) (second : m ∈ loads) :
    [(k, l), (k', m)].Sublist (rounds loads n) := by
  obtain ⟨rest, rfl⟩ := Nat.exists_eq_add_of_lt h
  have early : [(k, l)].Sublist (rounds loads k') :=
    List.singleton_sublist.mpr (mem_rounds.mpr ⟨order, first⟩)
  have late : [(k', m)].Sublist (((List.range (rest + 1)).map (k' + ·)).flatMap fun k =>
      loads.map (k, ·)) := by
    refine List.singleton_sublist.mpr (List.mem_flatMap.mpr ⟨k', ?_, List.mem_map_of_mem second⟩)
    exact List.mem_map.mpr ⟨0, List.mem_range.mpr (Nat.succ_pos rest), rfl⟩
  rw [rounds, Nat.add_assoc, List.range_add, List.flatMap_append]
  exact early.append late

end Rounds

end InterleavedReads
