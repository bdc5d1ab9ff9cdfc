import Mathlib.Data.List.Dedup
import Mathlib.Data.List.Induction

/-! A store ordered by its keys: puts of which the last one wins, and iteration
from the greatest key down. -/

namespace OrderedStore

variable {α β ρ : Type} [Ord α]

/-- The store after putting every entry of a log, in order. -/
def putAll (key : ρ → α) (value : ρ → β) (store : Std.TreeMap α β) (log : List ρ) :
    Std.TreeMap α β :=
  log.foldl (fun store r => store.insert (key r) (value r)) store

def backwards (store : Std.TreeMap α β) : List (α × β) := store.toList.reverse

section Iteration

variable [Std.TransOrd α]

theorem backwards_decreasing (store : Std.TreeMap α β) :
    (backwards store).Pairwise fun a b => compare b.1 a.1 = .lt :=
  List.pairwise_reverse.mpr Std.TreeMap.ordered_keys_toList

theorem backwards_keys_nodup (store : Std.TreeMap α β) :
    ((backwards store).map Prod.fst).Nodup := by
  refine List.Pairwise.map _ (fun a b decreasing same => ?_) (backwards_decreasing store)
  rw [same, Std.ReflOrd.compare_self] at decreasing
  cases decreasing

theorem mem_backwards [Std.LawfulEqOrd α] {store : Std.TreeMap α β} {k : α} {v : β} :
    (k, v) ∈ backwards store ↔ store[k]? = some v := by
  rw [backwards, List.mem_reverse, Std.TreeMap.mem_toList_iff_getElem?_eq_some]

end Iteration

section Log

variable [Std.TransOrd α] (key : ρ → α) (value : ρ → β) (store : Std.TreeMap α β) {log : List ρ}

theorem getElem?_putAll_concat (log : List ρ) (r : ρ) (k : α) :
    (putAll key value store (log ++ [r]))[k]? =
      if compare (key r) k = .eq then some (value r) else (putAll key value store log)[k]? := by
  rw [putAll, List.foldl_append, List.foldl_cons, List.foldl_nil, Std.TreeMap.getElem?_insert]
  rfl

variable [Std.LawfulEqOrd α]

theorem putAll_of_absent {k : α} (absent : ∀ r ∈ log, key r ≠ k) :
    (putAll key value store log)[k]? = store[k]? := by
  induction log using List.reverseRecOn with
  | nil => rfl
  | append_singleton earlier last ih =>
    have other : compare (key last) k ≠ .eq :=
      fun same => absent last (by simp) (Std.LawfulEqOrd.eq_of_compare same)
    rw [getElem?_putAll_concat, if_neg other]
    exact ih fun r member => absent r (List.mem_append_left _ member)

/-- A key of the log holds the value of some entry with that key. -/
theorem putAll_of_present {r : ρ} (present : r ∈ log) :
    ∃ last ∈ log, key last = key r ∧
      (putAll key value store log)[key r]? = some (value last) := by
  induction log using List.reverseRecOn with
  | nil => cases present
  | append_singleton earlier last ih =>
    rw [getElem?_putAll_concat]
    by_cases same : key last = key r
    · refine ⟨last, by simp, same, ?_⟩
      rw [same, Std.ReflOrd.compare_self, if_pos rfl]
    · have among : r ∈ earlier := by
        rcases List.mem_append.mp present with among | here
        · exact among
        · rw [List.mem_singleton.mp here] at same
          exact absurd rfl same
      obtain ⟨writer, member, eq, found⟩ := ih among
      refine ⟨writer, List.mem_append_left _ member, eq, ?_⟩
      rw [if_neg (fun eq => same (Std.LawfulEqOrd.eq_of_compare eq)), found]

end Log

section Written

variable [DecidableEq α]

/-- The entries under the keys of a log, from the greatest key down. -/
def written (key : ρ → α) (store : Std.TreeMap α β) (log : List ρ) : List (α × β) :=
  (backwards store).filter fun entry => decide (entry.1 ∈ log.map key)

variable [Std.TransOrd α] (key : ρ → α) (value : ρ → β) (store : Std.TreeMap α β) (log : List ρ)

theorem written_decreasing :
    (written key store log).Pairwise fun a b => compare b.1 a.1 = .lt :=
  (backwards_decreasing store).filter _

variable [Std.LawfulEqOrd α] {log}

/-- Every entry under a key of the log was written by it. -/
theorem mem_written {entry : α × β}
    (member : entry ∈ written key (putAll key value store log) log) :
    ∃ r ∈ log, entry = (key r, value r) := by
  obtain ⟨k, v⟩ := entry
  obtain ⟨found, among⟩ := List.mem_filter.mp member
  obtain ⟨r, present, rfl⟩ := List.mem_map.mp (of_decide_eq_true among)
  obtain ⟨last, logged, same, value⟩ := putAll_of_present key value store present
  rw [mem_backwards, value] at found
  cases found
  exact ⟨last, logged, by rw [same]⟩

/-- There is one entry for each key of the log. -/
theorem written_keys_perm (log : List ρ) :
    ((written key (putAll key value store log) log).map Prod.fst).Perm (log.map key).dedup := by
  have nodup : ((written key (putAll key value store log) log).map Prod.fst).Nodup :=
    (backwards_keys_nodup _).sublist (List.filter_sublist.map _)
  refine (List.perm_ext_iff_of_nodup nodup (List.nodup_dedup _)).mpr fun k => ?_
  rw [List.mem_dedup]
  constructor
  · intro member
    obtain ⟨entry, inside, rfl⟩ := List.mem_map.mp member
    exact of_decide_eq_true (List.mem_filter.mp inside).2
  · intro member
    obtain ⟨r, present, rfl⟩ := List.mem_map.mp member
    obtain ⟨last, _, _, found⟩ := putAll_of_present key value store present
    exact List.mem_map.mpr ⟨(key r, value last),
      List.mem_filter.mpr ⟨mem_backwards.mpr found, decide_eq_true member⟩, rfl⟩

/-- A log of distinct keys is found in the store entry for entry. -/
theorem written_perm (distinct : (log.map key).Nodup) :
    (written key (putAll key value store log) log).Perm (log.map fun r => (key r, value r)) := by
  have writtenNodup : (written key (putAll key value store log) log).Nodup :=
    List.Nodup.of_map Prod.fst
      ((written_keys_perm key value store log).nodup_iff.mpr (List.nodup_dedup _))
  have entriesNodup : (log.map fun r => (key r, value r)).Nodup := by
    apply List.Nodup.of_map Prod.fst
    rwa [List.map_map]
  refine (List.perm_ext_iff_of_nodup writtenNodup entriesNodup).mpr fun entry => ?_
  constructor
  · intro member
    obtain ⟨r, present, rfl⟩ := mem_written key value store member
    exact List.mem_map_of_mem present
  · intro member
    obtain ⟨r, present, rfl⟩ := List.mem_map.mp member
    obtain ⟨last, among, same, found⟩ := putAll_of_present key value store present
    rw [List.inj_on_of_nodup_map distinct among present same] at found
    exact List.mem_filter.mpr
      ⟨mem_backwards.mpr found, decide_eq_true (List.mem_map_of_mem present)⟩

/-- A store that was empty has nothing else. -/
theorem written_of_empty (log : List ρ) :
    written key (putAll key value ∅ log) log = backwards (putAll key value ∅ log) := by
  refine List.filter_eq_self.mpr fun ⟨k, v⟩ member => decide_eq_true ?_
  by_contra absent
  rw [mem_backwards, putAll_of_absent key value ∅
    fun r present same => absent (List.mem_map.mpr ⟨r, present, same⟩)] at member
  simp at member

end Written

end OrderedStore
