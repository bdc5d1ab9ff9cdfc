import Mathlib.Algebra.Order.BigOperators.Group.Finset
import Mathlib.Tactic.Abel
import NeuroKinetic.Library.InterleavedReads

/-! Several writers, each making its updates in order, beside one reader. The updates that
were made are a history like one writer's, so that the loads are related as there. -/

namespace InterleavedReads

/-- Whose step comes next among several writers and a reader. -/
inductive Access (ι : Type) where
  | writer (i : ι)
  | reader

structure Race (ι U L : Type) where
  programs : ι → List U
  reads : Run U L

variable {ι U L : Type}

def Race.start (programs : ι → List U) (loads : List L) : Race ι U L :=
  ⟨programs, Run.start [] loads⟩

section Steps

variable [DecidableEq ι]

def Race.step (s : Race ι U L) : Access ι → Race ι U L
  | .writer i =>
    match s.programs i with
    | [] => s
    | u :: rest =>
      { programs := Function.update s.programs i rest
        reads := { s.reads with made := s.reads.made ++ [u] } }
  | .reader => { s with reads := s.reads.step .reader }

def Race.after (s : Race ι U L) (accesses : List (Access ι)) : Race ι U L :=
  accesses.foldl Race.step s

theorem Inv.made_snoc {loads : List L} {made : List U} {unread : List L} {seen : List (L × List U)}
    (h : Inv made loads ⟨made, [], unread, seen⟩) (u : U) :
    Inv (made ++ [u]) loads ⟨made ++ [u], [], unread, seen⟩ :=
  ⟨List.append_nil _, h.loads, fun e member => (h.made e member).trans (List.prefix_append made [u]),
    h.ordered⟩

/-- The loads of a race stand to each other as beside one writer. -/
structure RaceInv (programs : ι → List U) (loads : List L) (s : Race ι U L) : Prop where
  reads : Inv s.reads.made loads s.reads
  parts : ∀ i, s.programs i <:+ programs i

omit [DecidableEq ι] in
theorem raceInv_start (programs : ι → List U) (loads : List L) :
    RaceInv programs loads (Race.start programs loads) :=
  ⟨inv_start [] loads, fun _ => List.suffix_rfl⟩

theorem RaceInv.step {programs : ι → List U} {loads : List L} {s : Race ι U L}
    (h : RaceInv programs loads s) (access : Access ι) : RaceInv programs loads (s.step access) := by
  obtain ⟨rest, made, updates, unread, seen⟩ := s
  have none : updates = [] := by
    have all := h.reads.updates
    exact List.append_right_eq_self.mp all
  subst none
  cases access with
  | reader =>
    have next := h.reads.step .reader
    cases unread with
    | nil => exact ⟨next, h.parts⟩
    | cons l later => exact ⟨next, h.parts⟩
  | writer i =>
    unfold Race.step
    dsimp only
    split
    next => exact h
    next u later program =>
      refine ⟨h.reads.made_snoc u, fun j => ?_⟩
      dsimp only
      by_cases same : j = i
      · subst same
        rw [Function.update_self]
        exact (List.suffix_cons u later).trans (program ▸ h.parts j)
      · rw [Function.update_of_ne same]
        exact h.parts j

theorem RaceInv.after {programs : ι → List U} {loads : List L} {s : Race ι U L}
    (h : RaceInv programs loads s) (accesses : List (Access ι)) :
    RaceInv programs loads (s.after accesses) :=
  List.foldlRecOn accesses Race.step h fun _ inv access _ => inv.step access

/-- A load saw what had been made at some moment of the race. -/
theorem seen_moment {programs : ι → List U} {loads : List L} (accesses : List (Access ι)) :
    ∀ e ∈ ((Race.start programs loads).after accesses).reads.seen, ∃ earlier,
      e.2 = ((Race.start programs loads).after earlier).reads.made := by
  induction accesses using List.reverseRecOn with
  | nil => exact fun e member => absurd member List.not_mem_nil
  | append_singleton accesses access ih =>
    have moved : (Race.start programs loads).after (accesses ++ [access]) =
        ((Race.start programs loads).after accesses).step access := List.foldl_append
    intro e member
    rw [moved] at member
    cases access with
    | writer i =>
      unfold Race.step at member
      dsimp only at member
      split at member
      next => exact ih e member
      next => exact ih e member
    | reader =>
      unfold Race.step Run.step at member
      dsimp only at member
      split at member
      next => exact ih e member
      next =>
        rcases List.mem_append.mp member with old | new
        · exact ih e old
        · exact ⟨accesses, by rw [List.mem_singleton.mp new]⟩

theorem historyAt_moment [DecidableEq L] {programs : ι → List U} {loads : List L}
    (accesses : List (Access ι)) (l : L) : ∃ earlier,
      ((Race.start programs loads).after accesses).reads.historyAt l =
        ((Race.start programs loads).after earlier).reads.made := by
  rw [Run.historyAt]
  cases found : ((Race.start programs loads).after accesses).reads.seen.lookup l with
  | none => exact ⟨[], rfl⟩
  | some past =>
    obtain ⟨before, later, eq, _⟩ := List.lookup_eq_some_iff.mp found
    have member : (l, past) ∈ ((Race.start programs loads).after accesses).reads.seen := by
      rw [eq]
      exact List.mem_append_right _ List.mem_cons_self
    exact seen_moment accesses _ member

end Steps

section Weights

variable [Fintype ι] {M : Type} [AddCommMonoid M] (weight : U → M)

def Race.total (s : Race ι U L) : M :=
  (s.reads.made.map weight).sum + ∑ i, ((s.programs i).map weight).sum

variable [DecidableEq ι]

/-- What has been made and what is left to make add up to the programs. -/
theorem Race.total_step (s : Race ι U L) (access : Access ι) :
    (s.step access).total weight = s.total weight := by
  obtain ⟨programs, made, updates, unread, seen⟩ := s
  cases access with
  | reader => cases unread <;> rfl
  | writer i =>
    unfold Race.step
    dsimp only
    split
    next => rfl
    next u rest program =>
      have others : ∑ j, ((Function.update programs i rest j).map weight).sum + weight u =
          ∑ j, ((programs j).map weight).sum := by
        rw [← Finset.add_sum_erase _ _ (Finset.mem_univ i),
          ← Finset.add_sum_erase (f := fun j => ((programs j).map weight).sum) _ (Finset.mem_univ i)]
        have rest_eq : ∑ j ∈ Finset.univ.erase i, ((Function.update programs i rest j).map weight).sum =
            ∑ j ∈ Finset.univ.erase i, ((programs j).map weight).sum :=
          Finset.sum_congr rfl fun j member => by
            rw [Function.update_of_ne (Finset.ne_of_mem_erase member)]
        rw [rest_eq, Function.update_self, program, List.map_cons, List.sum_cons]
        abel
      rw [Race.total, Race.total, ← others, List.map_append, List.sum_append, List.map_singleton,
        List.sum_singleton]
      abel

theorem Race.total_after (s : Race ι U L) (accesses : List (Access ι)) :
    (s.after accesses).total weight = s.total weight :=
  List.foldlRecOn (motive := fun t : Race ι U L => t.total weight = s.total weight) accesses
    Race.step rfl fun t held access _ => (t.total_step weight access).trans held

theorem made_le {N : Type} [AddCommMonoid N] [PartialOrder N] [CanonicallyOrderedAdd N]
    {programs : ι → List U} {loads : List L} (weight : U → N) (accesses : List (Access ι)) :
    (((Race.start programs loads).after accesses).reads.made.map weight).sum ≤
      ∑ i, ((programs i).map weight).sum := by
  have all := Race.total_after weight (Race.start programs loads) accesses
  have start : (Race.start programs loads).total weight = 0 + ∑ i, ((programs i).map weight).sum := rfl
  rw [start, zero_add] at all
  rw [← all]
  exact le_self_add

/-- An order that every program keeps within itself is kept by what the race has made: where each
program ends with as much of `late` as of `early` and no end of it has more of `early`, the
history has no more of `late` than of `early`. -/
theorem made_late_le {programs : ι → List U} {loads : List L} {early late : U → ℕ}
    (balanced : ∀ i, ((programs i).map early).sum = ((programs i).map late).sum)
    (order : ∀ i rest, rest <:+ programs i → (rest.map early).sum ≤ (rest.map late).sum)
    (accesses : List (Access ι)) :
    let made := ((Race.start programs loads).after accesses).reads.made
    (made.map late).sum ≤ (made.map early).sum := by
  intro made
  have inv := (raceInv_start programs loads).after accesses
  have lates := Race.total_after late (Race.start programs loads) accesses
  have earlies := Race.total_after early (Race.start programs loads) accesses
  have same : ∑ i, ((programs i).map early).sum = ∑ i, ((programs i).map late).sum :=
    Finset.sum_congr rfl fun i _ => balanced i
  have left := Finset.sum_le_sum fun i (_ : i ∈ Finset.univ) => order i _ (inv.parts i)
  have made_late : (made.map late).sum + _ = 0 + ∑ i, ((programs i).map late).sum := lates
  have made_early : (made.map early).sum + _ = 0 + ∑ i, ((programs i).map early).sum := earlies
  omega

end Weights

end InterleavedReads
