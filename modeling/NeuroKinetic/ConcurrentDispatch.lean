import NeuroKinetic.Dispatch
import NeuroKinetic.Library.OrderedCopy
import Mathlib.Data.Fintype.Defs
import Mathlib.Data.Rat.Defs

open OrderedCopy

namespace NeuroKinetic

def DispatchPc.completing {K : Type} : DispatchPc K → List (CommandSlot K)
  | .storeField payload [] => [payload]
  | _ => []

/-- Any number of clients over one command slot, with the dispatches whose
sequence has been stored and those that have returned. -/
structure CommandClients (ι K : Type) where
  mem : CommandMemory K
  clients : ι → Dispatcher K
  published : List (CommandSlot K)
  completed : List (CommandSlot K)

/-- The client whose access comes next; an idle one begins a dispatch of `args`. -/
structure ClientTurn (ι K : Type) where
  client : ι
  args : DispatchArgs K

section Step

variable {ι K : Type}

def CommandClients.start (heartbeatPython : Nat) (initial : CommandSlot K) (counters : ι → Nat) :
    CommandClients ι K where
  mem := ⟨heartbeatPython, initial.word⟩
  clients := fun c => ⟨counters c, .idle⟩
  published := []
  completed := []

def CommandClients.pc (s : CommandClients ι K) (c : ι) : DispatchPc K := (s.clients c).pc

def CommandClients.step [Field K] [DecidableEq ι] (packFloat : Ieee K → Option (Ieee K))
    (s : CommandClients ι K) (turn : ClientTurn ι K) : CommandClients ι K :=
  let after := dispatchStep packFloat turn.args s.mem (s.clients turn.client)
  { mem := after.1
    clients := Function.update s.clients turn.client after.2
    published := s.published ++ (s.pc turn.client).publishing
    completed := s.completed ++ (s.pc turn.client).completing }

def CommandClients.run [Field K] [DecidableEq ι] (packFloat : Ieee K → Option (Ieee K))
    (s : CommandClients ι K) (turns : List (ClientTurn ι K)) : CommandClients ι K :=
  turns.foldl (CommandClients.step packFloat) s

/-- The client has loaded nothing yet of the dispatch it is in, if it is in one. -/
inductive DispatchPc.Unloaded : DispatchPc K → Prop
  | idle : Unloaded .idle
  | loadSeq (args : DispatchArgs K) : Unloaded (.loadSeq args)

section Unloaded

variable {K : Type} {pc : DispatchPc K}

theorem DispatchPc.Unloaded.publishing (h : pc.Unloaded) : pc.publishing = [] := by
  cases h <;> rfl

theorem DispatchPc.Unloaded.completing (h : pc.Unloaded) : pc.completing = [] := by
  cases h <;> rfl

theorem DispatchPc.Unloaded.ne_storeSeq (h : pc.Unloaded) (p : CommandSlot K) :
    pc ≠ .storeSeq p := by
  cases h <;> simp

theorem DispatchPc.Unloaded.ne_storeField (h : pc.Unloaded) (p : CommandSlot K)
    (pending : List CommandField) : pc ≠ .storeField p pending := by
  cases h <;> simp

end Unloaded

/-- What one access of a dispatch does to the client's place in it and to the slot. -/
inductive AccessEffect {K : Type} (slot : CommandField → Word K) :
    DispatchPc K → DispatchPc K → (CommandField → Word K) → Prop
  | quiet {before after : DispatchPc K} (unloaded : before.Unloaded)
      (quiet : after.Unloaded) : AccessEffect slot before after slot
  | loaded {args : DispatchArgs K} {payload : CommandSlot K}
      (final : payload.seq = finalSeq (slot .seq).toNat) :
      AccessEffect slot (.loadSeq args) (.storeSeq payload) slot
  | published (payload : CommandSlot K) :
      AccessEffect slot (.storeSeq payload) (.storeField payload payloadFields)
        (Function.update slot .seq (.uint payload.seq))
  | returned (payload : CommandSlot K) : AccessEffect slot (.storeField payload []) .idle slot
  | stored (payload : CommandSlot K) (f : CommandField) (rest : List CommandField) :
      AccessEffect slot (.storeField payload (f :: rest)) (.storeField payload rest)
        (Function.update slot f (payload.word f))

theorem dispatchStep_effect {K : Type} [Field K] (packFloat : Ieee K → Option (Ieee K))
    (args : DispatchArgs K) (mem : CommandMemory K) (c : Dispatcher K) :
    AccessEffect mem.slot c.pc (dispatchStep packFloat args mem c).2.pc
      (dispatchStep packFloat args mem c).1.slot := by
  obtain ⟨counter, pc⟩ := c
  simp only [dispatchStep]
  cases pc with
  | idle =>
    simp only
    split
    next => exact .quiet .idle (.loadSeq args)
    next => exact .quiet .idle .idle
  | loadSeq args =>
    simp only
    split
    next => exact .quiet (.loadSeq args) .idle
    next payload packed => exact .loaded (packCommand_ok packed).1
  | storeSeq payload => exact .published payload
  | storeField payload pending =>
    cases pending with
    | nil => exact .returned payload
    | cons f rest => exact .stored payload f rest

/-- The client has loaded the sequence and is about to store its own. -/
def DispatchPc.Loaded : DispatchPc K → Prop
  | .storeSeq _ => True
  | _ => False

/-- No earlier dispatch than `seq` has the field yet to store. -/
def DispatchPc.Cleared (seq : Nat) (f : CommandField) : DispatchPc K → Prop
  | .storeField payload pending => payload.seq < seq → f ∉ pending
  | _ => True

instance decidableLoaded : (pc : DispatchPc K) → Decidable pc.Loaded
  | .storeSeq _ => isTrue trivial
  | .idle | .loadSeq _ | .storeField _ _ => isFalse id

instance decidableCleared (seq : Nat) (f : CommandField) :
    (pc : DispatchPc K) → Decidable (pc.Cleared seq f)
  | .storeField payload pending => inferInstanceAs (Decidable (payload.seq < seq → f ∉ pending))
  | .idle | .loadSeq _ | .storeSeq _ => isTrue trivial

/-- Clients in order: none loads the sequence between another's load and store
of it, and none stores a field that an earlier dispatch has yet to store. -/
def CommandClients.Ordered (s : CommandClients ι K) (turn : ClientTurn ι K) : Prop :=
  match s.pc turn.client with
  | .loadSeq _ => ∀ d, ¬(s.pc d).Loaded
  | .storeField payload (f :: _) => ∀ d, (s.pc d).Cleared payload.seq f
  | _ => True

instance decidableOrdered [Fintype ι] (s : CommandClients ι K) (turn : ClientTurn ι K) :
    Decidable (s.Ordered turn) := by
  unfold CommandClients.Ordered
  split <;> infer_instance

end Step

section Invariant

variable {ι K : Type}

/-- The slot between dispatches: each field belongs to one dispatch, and those
that have it yet to store are exactly the later ones. -/
structure FieldOwner (initial : CommandSlot K) (s : CommandClients ι K) (f : CommandField)
    (owner : CommandSlot K) : Prop where
  known : owner ∈ initial :: s.published
  value : s.mem.slot f = owner.word f
  later : ∀ p ∈ s.published, owner.seq < p.seq → ∃ c pending, s.pc c = .storeField p pending ∧
    f ∈ pending
  pending : ∀ c p pending, s.pc c = .storeField p pending → f ∈ pending → owner.seq < p.seq

structure SequenceInv (initial : CommandSlot K) (s : CommandClients ι K) : Prop where
  increasing : (initial :: s.published).Pairwise (fun p q => p.seq < q.seq)
  seq : ∃ latest ∈ initial :: s.published, s.mem.slot .seq = .uint latest.seq ∧
    (∀ p ∈ initial :: s.published, p.seq ≤ latest.seq) ∧
    ∀ c p, s.pc c = .storeSeq p → latest.seq < p.seq
  alone : ∀ c d p q, s.pc c = .storeSeq p → s.pc d = .storeSeq q → c = d

/-- Which dispatches are storing, which have returned, and what is in the slot. -/
structure StoresInv (initial : CommandSlot K) (s : CommandClients ι K) : Prop where
  storing : ∀ c p pending, s.pc c = .storeField p pending →
    p ∈ s.published ∧ pending.Nodup ∧ pending ⊆ payloadFields
  distinct : ∀ c d p q l m, s.pc c = .storeField p l → s.pc d = .storeField q m →
    p.seq = q.seq → c = d
  field : ∀ f ∈ payloadFields, ∃ owner, FieldOwner initial s f owner
  ending : ∀ p ∈ s.published, p ∈ s.completed ∨ ∃ c pending, s.pc c = .storeField p pending
  ended : ∀ p ∈ s.completed, p ∈ s.published ∧ ∀ c q pending, s.pc c = .storeField q pending →
    q.seq ≠ p.seq
  unique : s.completed.Pairwise (fun p q => p.seq ≠ q.seq)

section Start

variable (heartbeatPython : Nat) (initial : CommandSlot K) (counters : ι → Nat)

theorem start_idle (c : ι) :
    (CommandClients.start heartbeatPython initial counters).pc c = .idle := rfl

theorem sequenceInv_start :
    SequenceInv initial (CommandClients.start heartbeatPython initial counters) := by
  refine ⟨List.pairwise_singleton _ _, ⟨initial, List.mem_cons_self, rfl, fun p member => ?_,
    fun c p h => ?_⟩, fun c d p q h => ?_⟩
  · rw [List.mem_singleton.mp member]
  · rw [start_idle] at h
    cases h
  · rw [start_idle] at h
    cases h

theorem storesInv_start :
    StoresInv initial (CommandClients.start heartbeatPython initial counters) := by
  have quiet : ∀ {c p pending},
      (CommandClients.start heartbeatPython initial counters).pc c ≠ .storeField p pending := by
    intro c p pending h
    cases h
  refine ⟨fun c p pending h => absurd h quiet, fun c d p q l m h => absurd h quiet, ?_,
    fun p member => ?_, fun p member => ?_, List.Pairwise.nil⟩
  · intro f _
    refine ⟨initial, List.mem_cons_self, rfl, fun p member => ?_,
      fun c p pending h => absurd h quiet⟩
    cases member
  · cases member
  · cases member

end Start

variable {initial : CommandSlot K} {s s' : CommandClients ι K} {c : ι} {p : CommandSlot K}

theorem loads_of_others (mine : ∀ q, s'.pc c ≠ .storeSeq q)
    (others : ∀ d, d ≠ c → s'.pc d = s.pc d) (d : ι) (q : CommandSlot K)
    (loading : s'.pc d = .storeSeq q) : s.pc d = .storeSeq q := by
  by_cases eq : d = c
  · subst eq
    exact absurd loading (mine q)
  · rwa [others d eq] at loading

theorem stores_iff_others (before : ∀ q l, s.pc c ≠ .storeField q l)
    (mine : ∀ q l, s'.pc c ≠ .storeField q l) (others : ∀ d, d ≠ c → s'.pc d = s.pc d) (d : ι)
    (q : CommandSlot K) (l : List CommandField) :
    s'.pc d = .storeField q l ↔ s.pc d = .storeField q l := by
  by_cases eq : d = c
  · subst eq
    exact ⟨fun h => absurd h (mine q l), fun h => absurd h (before q l)⟩
  · rw [others d eq]

theorem SequenceInv.keep (h : SequenceInv initial s) (slot : s'.mem.slot .seq = s.mem.slot .seq)
    (published : s'.published = s.published)
    (loads : ∀ d q, s'.pc d = .storeSeq q → s.pc d = .storeSeq q) : SequenceInv initial s' := by
  obtain ⟨latest, known, seq, newest, ahead⟩ := h.seq
  refine ⟨by rw [published]; exact h.increasing, ?_, ?_⟩
  · rw [published, slot]
    exact ⟨latest, known, seq, newest, fun d q loading => ahead d q (loads d q loading)⟩
  · exact fun d e q r first second => h.alone d e q r (loads d q first) (loads e r second)

/-- A client loads the sequence while no other is about to store one. -/
theorem SequenceInv.load (h : SequenceInv initial s) (slot : s'.mem.slot = s.mem.slot)
    (published : s'.published = s.published) (free : ∀ d, ¬(s.pc d).Loaded)
    (final : p.seq = finalSeq (s.mem.slot .seq).toNat)
    (mine : s'.pc c = .storeSeq p) (others : ∀ d, d ≠ c → s'.pc d = s.pc d) :
    SequenceInv initial s' := by
  have only : ∀ d q, s'.pc d = .storeSeq q → d = c := by
    intro d q loading
    by_contra other
    rw [others d other] at loading
    have loaded := free d
    rw [loading] at loaded
    exact loaded trivial
  obtain ⟨latest, known, seq, newest, _⟩ := h.seq
  refine ⟨by rw [published]; exact h.increasing, ?_, ?_⟩
  · rw [published, slot]
    refine ⟨latest, known, seq, newest, fun d q loading => ?_⟩
    obtain rfl := only d q loading
    rw [mine] at loading
    cases loading
    rw [final, seq]
    exact seq_lt_finalSeq latest.seq
  · intro d e q r first second
    rw [only d q first, only e r second]

/-- The store of the sequence comes after every other published one. -/
theorem SequenceInv.above (h : SequenceInv initial s) (pc : s.pc c = .storeSeq p) :
    ∀ q ∈ initial :: s.published, q.seq < p.seq := by
  obtain ⟨latest, _, _, newest, ahead⟩ := h.seq
  exact fun q member => (newest q member).trans_lt (ahead c p pc)

theorem SequenceInv.publish (h : SequenceInv initial s) (pc : s.pc c = .storeSeq p)
    (slot : s'.mem.slot .seq = .uint p.seq) (published : s'.published = s.published ++ [p])
    (mine : ∀ q, s'.pc c ≠ .storeSeq q) (others : ∀ d, d ≠ c → s'.pc d = s.pc d) :
    SequenceInv initial s' := by
  have none : ∀ d q, s'.pc d ≠ .storeSeq q := by
    intro d q loading
    by_cases eq : d = c
    · subst eq
      exact mine q loading
    · rw [others d eq] at loading
      exact eq (h.alone d c q p loading pc)
  have above := h.above pc
  refine ⟨?_, ⟨p, ?_, slot, fun q member => ?_, fun d q loading => absurd loading (none d q)⟩,
    fun d e q r first => absurd first (none d q)⟩
  · rw [published, ← List.cons_append]
    refine List.pairwise_append.mpr ⟨h.increasing, List.pairwise_singleton _ _, ?_⟩
    intro q member r last
    obtain rfl := List.mem_singleton.mp last
    exact above q member
  · rw [published]
    simp
  · rw [published, ← List.cons_append] at member
    rcases List.mem_append.mp member with member | last
    · exact (above q member).le
    · rw [List.mem_singleton.mp last]

/-- A step that leaves a field alone leaves it to its owner, if the dispatches that have
it yet to store stay the same but for those of a newer sequence. -/
theorem FieldOwner.advance {f : CommandField} {owner : CommandSlot K}
    (h : FieldOwner initial s f owner) (slot : s'.mem.slot f = s.mem.slot f)
    (known : s.published ⊆ s'.published)
    (later : ∀ q ∈ s'.published, q ∈ s.published ∨ ∃ d l, s'.pc d = .storeField q l ∧ f ∈ l)
    (kept : ∀ d q l, s.pc d = .storeField q l → f ∈ l →
      ∃ l', s'.pc d = .storeField q l' ∧ f ∈ l')
    (before : ∀ d q l, s'.pc d = .storeField q l → f ∈ l →
      owner.seq < q.seq ∨ ∃ l', s.pc d = .storeField q l' ∧ f ∈ l') :
    FieldOwner initial s' f owner := by
  refine ⟨?_, slot.trans h.value, fun q member newer => ?_, fun d q l storing unstored => ?_⟩
  · rcases List.mem_cons.mp h.known with rfl | old
    · exact List.mem_cons_self
    · exact List.mem_cons_of_mem _ (known old)
  · rcases later q member with old | new
    · obtain ⟨d, l, storing, unstored⟩ := h.later q old newer
      obtain ⟨l', storing', unstored'⟩ := kept d q l storing unstored
      exact ⟨d, l', storing', unstored'⟩
    · exact new
  · rcases before d q l storing unstored with newer | ⟨l', old, unstored'⟩
    · exact newer
    · exact h.pending d q l' old unstored'

/-- Steps before the store of the sequence leave the stores alone. -/
theorem StoresInv.keep (h : StoresInv initial s) (slot : s'.mem.slot = s.mem.slot)
    (published : s'.published = s.published) (completed : s'.completed = s.completed)
    (stores : ∀ d q l, s'.pc d = .storeField q l ↔ s.pc d = .storeField q l) :
    StoresInv initial s' := by
  refine ⟨?_, ?_, ?_, ?_, ?_, by rw [completed]; exact h.unique⟩
  · intro d q l storing
    rw [published]
    exact h.storing d q l ((stores d q l).mp storing)
  · exact fun d e q r l m first second =>
      h.distinct d e q r l m ((stores d q l).mp first) ((stores e r m).mp second)
  · intro f member
    obtain ⟨owner, owned⟩ := h.field f member
    refine ⟨owner, owned.advance (by rw [slot]) (by rw [published]; exact List.Subset.refl _)
      (fun q known => Or.inl (published ▸ known)) ?_ ?_⟩
    · exact fun d q l storing unstored => ⟨l, (stores d q l).mpr storing, unstored⟩
    · exact fun d q l storing unstored => Or.inr ⟨l, (stores d q l).mp storing, unstored⟩
  · intro q member
    rw [published] at member
    rw [completed]
    rcases h.ending q member with done | ⟨d, l, storing⟩
    · exact Or.inl done
    · exact Or.inr ⟨d, l, (stores d q l).mpr storing⟩
  · intro q member
    rw [completed] at member
    rw [published]
    refine ⟨(h.ended q member).1, fun d r l storing => ?_⟩
    exact (h.ended q member).2 d r l ((stores d r l).mp storing)

theorem StoresInv.publish (h : StoresInv initial s) (seq : SequenceInv initial s)
    (pc : s.pc c = .storeSeq p)
    (slot : s'.mem.slot = Function.update s.mem.slot .seq (.uint p.seq))
    (published : s'.published = s.published ++ [p]) (completed : s'.completed = s.completed)
    (mine : s'.pc c = .storeField p payloadFields) (others : ∀ d, d ≠ c → s'.pc d = s.pc d) :
    StoresInv initial s' := by
  have above := seq.above pc
  have older : ∀ q ∈ s.published, q.seq < p.seq :=
    fun q member => above q (List.mem_cons_of_mem _ member)
  have kept : ∀ {d q l}, s.pc d = .storeField q l → s'.pc d = .storeField q l := by
    intro d q l storing
    rw [others d ?_]
    · exact storing
    · rintro rfl
      rw [pc] at storing
      cases storing
  have before : ∀ {d q l}, s'.pc d = .storeField q l →
      (d = c ∧ q = p ∧ l = payloadFields) ∨ s.pc d = .storeField q l := by
    intro d q l storing
    by_cases eq : d = c
    · subst eq
      rw [mine] at storing
      cases storing
      exact Or.inl ⟨rfl, rfl, rfl⟩
    · rw [others d eq] at storing
      exact Or.inr storing
  refine ⟨?_, ?_, ?_, ?_, ?_, by rw [completed]; exact h.unique⟩
  · intro d q l storing
    rw [published]
    rcases before storing with ⟨rfl, rfl, rfl⟩ | old
    · exact ⟨by simp, by decide, List.Subset.refl _⟩
    · obtain ⟨member, rest⟩ := h.storing d q l old
      exact ⟨List.mem_append_left _ member, rest⟩
  · intro d e q r l m first second same
    rcases before first with ⟨rfl, rfl, rfl⟩ | old
    · rcases before second with ⟨rfl, rfl, rfl⟩ | old'
      · rfl
      · exact absurd same (older r (h.storing e r m old').1).ne'
    · rcases before second with ⟨rfl, rfl, rfl⟩ | old'
      · exact absurd same (older q (h.storing d q l old).1).ne
      · exact h.distinct d e q r l m old old' same
  · intro f member
    obtain ⟨owner, owned⟩ := h.field f member
    have other : f ≠ .seq := by
      rintro rfl
      exact seq_not_payload member
    refine ⟨owner, owned.advance (by rw [slot, Function.update_of_ne other])
      (by rw [published]; exact List.subset_append_left _ _) (fun q known => ?_)
      (fun d q l storing unstored => ⟨l, kept storing, unstored⟩)
      fun d q l storing unstored => ?_⟩
    · rw [published] at known
      rcases List.mem_append.mp known with old | last
      · exact Or.inl old
      · obtain rfl := List.mem_singleton.mp last
        exact Or.inr ⟨c, payloadFields, mine, member⟩
    · rcases before storing with ⟨rfl, rfl, rfl⟩ | old
      · exact Or.inl (above owner owned.known)
      · exact Or.inr ⟨l, old, unstored⟩
  · intro q member
    rw [published] at member
    rw [completed]
    rcases List.mem_append.mp member with member | last
    · rcases h.ending q member with done | ⟨d, l, storing⟩
      · exact Or.inl done
      · exact Or.inr ⟨d, l, kept storing⟩
    · obtain rfl := List.mem_singleton.mp last
      exact Or.inr ⟨c, payloadFields, mine⟩
  · intro q member
    rw [completed] at member
    obtain ⟨known, distinct⟩ := h.ended q member
    rw [published]
    refine ⟨List.mem_append_left _ known, fun d r l storing => ?_⟩
    rcases before storing with ⟨rfl, rfl, rfl⟩ | old
    · exact (older q known).ne'
    · exact distinct d r l old

/-- A field changes hands when it is stored: from an earlier dispatch to this one. -/
theorem FieldOwner.store {f : CommandField} {rest : List CommandField} {owner : CommandSlot K}
    (h : FieldOwner initial s f owner) (stores : StoresInv initial s)
    (pc : s.pc c = .storeField p (f :: rest)) (ordered : ∀ d, (s.pc d).Cleared p.seq f)
    (slot : s'.mem.slot f = p.word f) (published : s'.published = s.published)
    (others : ∀ d, d ≠ c → s'.pc d = s.pc d)
    (before : ∀ d q l, s'.pc d = .storeField q l → f ∈ l →
      ∃ l', s.pc d = .storeField q l' ∧ f ∈ l' ∧ d ≠ c) : FieldOwner initial s' f p := by
  have earlier : owner.seq < p.seq := h.pending c p _ pc List.mem_cons_self
  refine ⟨?_, slot, fun q member newer => ?_, fun d q l storing unstored => ?_⟩
  · rw [published]
    exact List.mem_cons_of_mem _ (stores.storing c p _ pc).1
  · rw [published] at member
    obtain ⟨d, l, storing, unstored⟩ := h.later q member (earlier.trans newer)
    refine ⟨d, l, ?_, unstored⟩
    rw [others d ?_]
    · exact storing
    · rintro rfl
      rw [pc] at storing
      cases storing
      exact absurd newer (lt_irrefl _)
  · obtain ⟨l', old, unstored', other⟩ := before d q l storing unstored
    rcases lt_trichotomy q.seq p.seq with lower | same | higher
    · have cleared := ordered d
      rw [old] at cleared
      exact absurd unstored' (cleared lower)
    · exact absurd (stores.distinct d c q p l' _ old pc same) other
    · exact higher

theorem StoresInv.store {f : CommandField} {rest : List CommandField} (h : StoresInv initial s)
    (pc : s.pc c = .storeField p (f :: rest))
    (ordered : ∀ d, (s.pc d).Cleared p.seq f)
    (slot : s'.mem.slot = Function.update s.mem.slot f (p.word f))
    (published : s'.published = s.published) (completed : s'.completed = s.completed)
    (mine : s'.pc c = .storeField p rest) (others : ∀ d, d ≠ c → s'.pc d = s.pc d) :
    StoresInv initial s' := by
  obtain ⟨fresh, nodup⟩ := List.nodup_cons.mp (h.storing c p _ pc).2.1
  have kept : ∀ {d q l}, s.pc d = .storeField q l →
      ∃ l', s'.pc d = .storeField q l' ∧ ∀ g ∈ l, g ≠ f → g ∈ l' := by
    intro d q l storing
    by_cases eq : d = c
    · subst eq
      rw [pc] at storing
      cases storing
      exact ⟨rest, mine, fun g member ne => List.mem_of_ne_of_mem ne member⟩
    · exact ⟨l, by rwa [others d eq], fun g member _ => member⟩
  have before : ∀ {d q l}, s'.pc d = .storeField q l →
      ∃ l', s.pc d = .storeField q l' ∧ l ⊆ l' ∧ l.Nodup ∧ (f ∈ l → d ≠ c) := by
    intro d q l storing
    by_cases eq : d = c
    · subst eq
      rw [mine] at storing
      cases storing
      exact ⟨f :: rest, pc, List.subset_cons_self f rest, nodup, fun member => absurd member fresh⟩
    · rw [others d eq] at storing
      exact ⟨l, storing, List.Subset.refl l, (h.storing d q l storing).2.1, fun _ => eq⟩
  refine ⟨?_, ?_, ?_, ?_, ?_, by rw [completed]; exact h.unique⟩
  · intro d q l storing
    rw [published]
    obtain ⟨l', old, less, nodup, _⟩ := before storing
    obtain ⟨member, _, sub⟩ := h.storing d q l' old
    exact ⟨member, nodup, List.Subset.trans less sub⟩
  · intro d e q r l m first second same
    obtain ⟨l', old, _⟩ := before first
    obtain ⟨m', old', _⟩ := before second
    exact h.distinct d e q r l' m' old old' same
  · intro g member
    obtain ⟨owner, owned⟩ := h.field g member
    by_cases eq : g = f
    · subst eq
      refine ⟨p, owned.store h pc ordered (by rw [slot, Function.update_self]) published others
        fun d q l storing unstored => ?_⟩
      obtain ⟨l', old, less, _, other⟩ := before storing
      exact ⟨l', old, less unstored, other unstored⟩
    · refine ⟨owner, owned.advance (by rw [slot, Function.update_of_ne eq])
        (by rw [published]; exact List.Subset.refl _) (fun q known => Or.inl (published ▸ known))
        (fun d q l storing unstored => ?_) fun d q l storing unstored => ?_⟩
      · obtain ⟨l', storing', all⟩ := kept storing
        exact ⟨l', storing', all g unstored eq⟩
      · obtain ⟨l', old, less, _⟩ := before storing
        exact Or.inr ⟨l', old, less unstored⟩
  · intro q member
    rw [published] at member
    rw [completed]
    rcases h.ending q member with done | ⟨d, l, storing⟩
    · exact Or.inl done
    · obtain ⟨l', storing', _⟩ := kept storing
      exact Or.inr ⟨d, l', storing'⟩
  · intro q member
    rw [completed] at member
    rw [published]
    refine ⟨(h.ended q member).1, fun d r l storing => ?_⟩
    obtain ⟨l', old, _⟩ := before storing
    exact (h.ended q member).2 d r l' old

theorem StoresInv.finish (h : StoresInv initial s) (pc : s.pc c = .storeField p [])
    (slot : s'.mem.slot = s.mem.slot) (published : s'.published = s.published)
    (completed : s'.completed = s.completed ++ [p])
    (mine : ∀ q l, s'.pc c ≠ .storeField q l) (others : ∀ d, d ≠ c → s'.pc d = s.pc d) :
    StoresInv initial s' := by
  have kept : ∀ {d q l}, s.pc d = .storeField q l → d ≠ c → s'.pc d = .storeField q l := by
    intro d q l storing other
    rwa [others d other]
  have before : ∀ {d q l}, s'.pc d = .storeField q l → d ≠ c ∧ s.pc d = .storeField q l := by
    intro d q l storing
    have other : d ≠ c := by
      rintro rfl
      exact mine q l storing
    rw [others d other] at storing
    exact ⟨other, storing⟩
  refine ⟨?_, ?_, ?_, ?_, ?_, ?_⟩
  · intro d q l storing
    rw [published]
    exact h.storing d q l (before storing).2
  · exact fun d e q r l m first second =>
      h.distinct d e q r l m (before first).2 (before second).2
  · intro f member
    obtain ⟨owner, owned⟩ := h.field f member
    refine ⟨owner, owned.advance (by rw [slot]) (by rw [published]; exact List.Subset.refl _)
      (fun q known => Or.inl (published ▸ known)) (fun d q l storing unstored => ?_)
      fun d q l storing unstored => Or.inr ⟨l, (before storing).2, unstored⟩⟩
    refine ⟨l, kept storing ?_, unstored⟩
    rintro rfl
    rw [pc] at storing
    cases storing
    cases unstored
  · intro q member
    rw [published] at member
    rw [completed]
    rcases h.ending q member with done | ⟨d, l, storing⟩
    · exact Or.inl (List.mem_append_left _ done)
    · by_cases eq : d = c
      · subst eq
        rw [pc] at storing
        cases storing
        exact Or.inl (by simp)
      · exact Or.inr ⟨d, l, kept storing eq⟩
  · intro q member
    rw [completed] at member
    rw [published]
    rcases List.mem_append.mp member with member | last
    · exact ⟨(h.ended q member).1, fun d r l storing =>
        (h.ended q member).2 d r l (before storing).2⟩
    · obtain rfl := List.mem_singleton.mp last
      refine ⟨(h.storing c q [] pc).1, fun d r l storing same => ?_⟩
      obtain ⟨other, old⟩ := before storing
      exact other (h.distinct d c r q l [] old pc same)
  · rw [completed]
    refine List.pairwise_append.mpr
      ⟨h.unique, List.pairwise_singleton _ _, fun q member r last => ?_⟩
    obtain rfl := List.mem_singleton.mp last
    exact ((h.ended q member).2 c r [] pc).symm

end Invariant

section Run

variable {ι K : Type} [Field K] [DecidableEq ι] {initial : CommandSlot K}
  {s : CommandClients ι K}

theorem step_pc_of_ne (packFloat : Ieee K → Option (Ieee K)) (s : CommandClients ι K)
    (turn : ClientTurn ι K) {d : ι} (h : d ≠ turn.client) :
    (s.step packFloat turn).pc d = s.pc d :=
  congrArg Dispatcher.pc (Function.update_of_ne h _ _)

theorem step_pc_self (packFloat : Ieee K → Option (Ieee K)) (s : CommandClients ι K)
    (turn : ClientTurn ι K) : (s.step packFloat turn).pc turn.client =
      (dispatchStep packFloat turn.args s.mem (s.clients turn.client)).2.pc :=
  congrArg Dispatcher.pc (Function.update_self _ _ _)

/-- The published and the returned dispatches after a step, by where its client stood. -/
theorem step_histories (packFloat : Ieee K → Option (Ieee K)) {turn : ClientTurn ι K}
    {before : DispatchPc K} (pc : s.pc turn.client = before) :
    (s.step packFloat turn).published = s.published ++ before.publishing ∧
      (s.step packFloat turn).completed = s.completed ++ before.completing := by
  rw [← pc]
  exact ⟨rfl, rfl⟩

/-- One access of one client, by its effect. -/
theorem clientsInv_step (packFloat : Ieee K → Option (Ieee K)) {turn : ClientTurn ι K}
    (seq : SequenceInv initial s) (stores : StoresInv initial s) (ordered : s.Ordered turn) :
    SequenceInv initial (s.step packFloat turn) ∧ StoresInv initial (s.step packFloat turn) := by
  have others : ∀ d, d ≠ turn.client → (s.step packFloat turn).pc d = s.pc d :=
    fun d h => step_pc_of_ne packFloat s turn h
  have effect : AccessEffect s.mem.slot (s.pc turn.client) ((s.step packFloat turn).pc turn.client)
      (s.step packFloat turn).mem.slot := by
    rw [step_pc_self]
    exact dispatchStep_effect packFloat turn.args s.mem (s.clients turn.client)
  unfold CommandClients.Ordered at ordered
  generalize pc : s.pc turn.client = before at effect ordered
  generalize mine : (s.step packFloat turn).pc turn.client = after at effect
  generalize slot : (s.step packFloat turn).mem.slot = slot' at effect
  obtain ⟨published, completed⟩ := step_histories packFloat pc
  cases effect with
  | quiet unloaded quiet =>
    rw [unloaded.publishing, List.append_nil] at published
    rw [unloaded.completing, List.append_nil] at completed
    refine ⟨seq.keep (by rw [slot]) published
      (loads_of_others (mine ▸ quiet.ne_storeSeq) others), ?_⟩
    exact stores.keep slot published completed
      (stores_iff_others (pc ▸ unloaded.ne_storeField) (mine ▸ quiet.ne_storeField) others)
  | loaded final =>
    simp only [DispatchPc.publishing, List.append_nil] at published
    simp only [DispatchPc.completing, List.append_nil] at completed
    refine ⟨seq.load slot published ordered final mine others, ?_⟩
    exact stores.keep slot published completed
      (stores_iff_others (by simp [pc]) (by simp [mine]) others)
  | published payload =>
    rw [DispatchPc.publishing] at published
    simp only [DispatchPc.completing, List.append_nil] at completed
    refine ⟨seq.publish pc (by rw [slot, Function.update_self]) published (by simp [mine])
      others, ?_⟩
    exact stores.publish seq pc slot published completed mine others
  | returned payload =>
    simp only [DispatchPc.publishing, List.append_nil] at published
    rw [DispatchPc.completing] at completed
    refine ⟨seq.keep (by rw [slot]) published (loads_of_others (by simp [mine]) others), ?_⟩
    exact stores.finish pc slot published completed (by simp [mine]) others
  | stored payload f rest =>
    simp only [DispatchPc.publishing, List.append_nil] at published
    simp only [DispatchPc.completing, List.append_nil] at completed
    have other : CommandField.seq ≠ f := by
      rintro rfl
      exact seq_not_payload ((stores.storing _ _ _ pc).2.2 List.mem_cons_self)
    refine ⟨seq.keep (by rw [slot, Function.update_of_ne other]) published
      (loads_of_others (by simp [mine]) others), ?_⟩
    exact stores.store pc ordered slot published completed mine others

theorem clientsInv_run (packFloat : Ieee K → Option (Ieee K)) {turns : List (ClientTurn ι K)}
    (seq : SequenceInv initial s) (stores : StoresInv initial s)
    (ordered : Allowed (CommandClients.step packFloat) CommandClients.Ordered s turns) :
    SequenceInv initial (s.run packFloat turns) ∧ StoresInv initial (s.run packFloat turns) := by
  have preserved : ∀ (s : CommandClients ι K) turn, SequenceInv initial s ∧ StoresInv initial s →
      s.Ordered turn → SequenceInv initial (s.step packFloat turn) ∧
        StoresInv initial (s.step packFloat turn) :=
    fun s turn inv ok => clientsInv_step packFloat inv.1 inv.2 ok
  exact invariant_of_allowed preserved ⟨seq, stores⟩ ordered

end Run

section Quiescence

variable {ι K : Type} {initial : CommandSlot K} {s : CommandClients ι K}

theorem SequenceInv.initial_le (h : SequenceInv initial s) {p : CommandSlot K}
    (member : p ∈ initial :: s.published) : initial.seq ≤ p.seq := by
  rcases List.mem_cons.mp member with rfl | published
  · exact le_rfl
  · exact ((List.pairwise_cons.mp h.increasing).1 p published).le

theorem SequenceInv.unique (h : SequenceInv initial s) {p q : CommandSlot K}
    (hp : p ∈ initial :: s.published) (hq : q ∈ initial :: s.published) (same : p.seq = q.seq) :
    p = q := by
  have nodup : ((initial :: s.published).map CommandSlot.seq).Nodup :=
    List.pairwise_map.mpr (h.increasing.imp ne_of_lt)
  exact List.inj_on_of_nodup_map nodup hp hq same

/-- With no dispatch in progress every field belongs to the latest dispatch. -/
theorem quiescent_slot (seq : SequenceInv initial s) (stores : StoresInv initial s)
    (idle : ∀ c, s.pc c = .idle) :
    ∃ latest ∈ initial :: s.published, (∀ f, s.mem.slot f = latest.word f) ∧
      ∀ p ∈ initial :: s.published, p.seq ≤ latest.seq := by
  obtain ⟨latest, known, value, newest, _⟩ := seq.seq
  refine ⟨latest, known, fun f => ?_, newest⟩
  by_cases eq : f = .seq
  · subst eq
    exact value
  · obtain ⟨owner, known', stored, later, _⟩ := stores.field f (mem_payloadFields eq)
    have last : ∀ p ∈ s.published, p.seq ≤ owner.seq := by
      intro p member
      by_contra newer
      obtain ⟨c, pending, storing, _⟩ := later p member (not_le.mp newer)
      rw [idle c] at storing
      cases storing
    have same : owner.seq = latest.seq := by
      refine le_antisymm (newest owner known') ?_
      rcases List.mem_cons.mp known with rfl | published
      · exact seq.initial_le known'
      · exact last latest published
    rw [stored, seq.unique known' known same]

end Quiescence

/-- Concurrent dispatchers in order do not collide: their sequences differ, and
between dispatches the slot holds one of them whole. -/
theorem concurrent_dispatches_whole {ι K : Type} [Field K] [DecidableEq ι]
    (packFloat : Ieee K → Option (Ieee K)) (heartbeatPython : Nat) (initial : CommandSlot K)
    (counters : ι → Nat) (turns : List (ClientTurn ι K))
    (ordered : Allowed (CommandClients.step packFloat) CommandClients.Ordered
      (CommandClients.start heartbeatPython initial counters) turns) :
    let s := (CommandClients.start heartbeatPython initial counters).run packFloat turns
    s.completed.Pairwise (fun p q => p.seq ≠ q.seq) ∧
      ((∀ c, s.pc c = .idle) →
        (s.completed = [] ∧ ∀ f, s.mem.slot f = initial.word f) ∨
          ∃ p ∈ s.completed, ∀ f, s.mem.slot f = p.word f) := by
  intro s
  obtain ⟨seq, stores⟩ : SequenceInv initial s ∧ StoresInv initial s :=
    clientsInv_run packFloat (sequenceInv_start heartbeatPython initial counters)
      (storesInv_start heartbeatPython initial counters) ordered
  refine ⟨stores.unique, fun idle => ?_⟩
  obtain ⟨latest, known, value, newest⟩ := quiescent_slot seq stores idle
  rcases List.mem_cons.mp known with rfl | published
  · left
    refine ⟨List.eq_nil_iff_forall_not_mem.mpr fun p member => ?_, value⟩
    have member := (stores.ended p member).1
    have above := (List.pairwise_cons.mp seq.increasing).1 p member
    exact absurd (newest p (List.mem_cons_of_mem _ member)) (not_le.mpr above)
  · right
    rcases stores.ending latest published with done | ⟨c, pending, storing⟩
    · exact ⟨latest, done, value⟩
    · rw [idle c] at storing
      cases storing

section Schedules

def clientAccesses (client : Bool) (torque : ℚ) (accesses : Nat) : List (ClientTurn Bool ℚ) :=
  List.replicate accesses ⟨client, ⟨List.replicate 7 (.fin torque), .fin 0.08, .fin 15⟩⟩

/-- Two dispatches field by field in turn, the second one behind the first. -/
def overlappingTurns : List (ClientTurn Bool ℚ) :=
  clientAccesses false 1 3 ++ clientAccesses true 2 3 ++
    (List.replicate 18 (clientAccesses false 1 1 ++ clientAccesses true 2 1)).flatten

theorem overlappingTurns_ordered : Allowed (CommandClients.step some) CommandClients.Ordered
    (CommandClients.start 0 initialCommand (fun _ => 0)) overlappingTurns := by
  decide +kernel

theorem concurrent_dispatches_overlapping :
    let s := (CommandClients.start 0 initialCommand (fun _ => 0)).run some overlappingTurns
    (∀ c, s.pc c = .idle) ∧ s.completed.Pairwise (fun p q => p.seq ≠ q.seq) ∧
      ((s.completed = [] ∧ ∀ f, s.mem.slot f = initialCommand.word f) ∨
        ∃ p ∈ s.completed, ∀ f, s.mem.slot f = p.word f) := by
  intro s
  have idle : ∀ c, s.pc c = .idle := by
    intro c
    cases c <;> rfl
  have whole := concurrent_dispatches_whole some 0 initialCommand (fun _ => 0) overlappingTurns
    overlappingTurns_ordered
  exact ⟨idle, whole.1, whole.2 idle⟩

/-- Both clients load the same sequence, and the second stores its payload inside
the first one's. -/
def collidingTurns : List (ClientTurn Bool ℚ) :=
  clientAccesses false 1 2 ++ clientAccesses true 2 2 ++ clientAccesses false 1 2 ++
    clientAccesses true 2 19 ++ clientAccesses false 1 17

/-- Two dispatches publish sequence 2, and the slot is left with the first torque
of one and the others of the other. -/
theorem dispatches_collide :
    let s := (CommandClients.start 0 initialCommand (fun _ => 0)).run some collidingTurns
    (∀ c, s.pc c = .idle) ∧ s.completed.map CommandSlot.seq = [2, 2] ∧
      ∀ p ∈ s.completed, (s.mem.slot (.nominalTorque 0)).toFloat ≠ p.nominalTorques 0 ∨
        (s.mem.slot (.nominalTorque 1)).toFloat ≠ p.nominalTorques 1 := by
  intro s
  refine ⟨?_, by decide +kernel, by decide +kernel⟩
  intro c
  cases c <;> rfl

end Schedules

end NeuroKinetic
