import Mathlib.Logic.Function.Basic
import Mathlib.Data.List.Basic

/-! A record copied one field at a time, while somebody else may be using it. -/

namespace OrderedCopy

section Copy

variable {F W : Type} {source target : F → W} {fields pending rest : List F} {f : F}

/-- Of the listed fields, those no longer pending have been copied. -/
def Copied (source target : F → W) (fields pending : List F) : Prop :=
  ∀ f ∈ fields, f ∉ pending → target f = source f

/-- The fields still to be copied have not been touched in the source. -/
def Intact (source now : F → W) (pending : List F) : Prop :=
  ∀ f ∈ pending, now f = source f

theorem copied_start (source target : F → W) (fields : List F) :
    Copied source target fields fields :=
  fun _ member unloaded => absurd member unloaded

theorem Copied.done (h : Copied source target fields []) (member : f ∈ fields) :
    target f = source f :=
  h f member List.not_mem_nil

theorem Intact.tail (h : Intact source target (f :: rest)) : Intact source target rest :=
  fun g member => h g (List.mem_cons_of_mem f member)

variable [DecidableEq F]

theorem Copied.copy (h : Copied source target fields (f :: rest)) {value : W}
    (same : value = source f) : Copied source (Function.update target f value) fields rest := by
  intro g member unloaded
  by_cases eq : g = f
  · subst eq
    rw [Function.update_self, same]
  · rw [Function.update_of_ne eq]
    exact h g member (List.not_mem_cons_of_ne_of_not_mem eq unloaded)

theorem Intact.store (h : Intact source target pending) (value : W) (free : f ∉ pending) :
    Intact source (Function.update target f value) pending := by
  intro g member
  have ne : g ≠ f := fun eq => free (eq ▸ member)
  rw [Function.update_of_ne ne]
  exact h g member

end Copy

section Runs

variable {σ τ : Type} {step : σ → τ → σ} {ok : σ → τ → Prop} {Inv : σ → Prop}

/-- Every turn of a run is taken in a state that allows it. -/
def Allowed (step : σ → τ → σ) (ok : σ → τ → Prop) : σ → List τ → Prop
  | _, [] => True
  | s, turn :: rest => ok s turn ∧ Allowed step ok (step s turn) rest

instance Allowed.decidable (step : σ → τ → σ) (ok : σ → τ → Prop)
    [∀ s turn, Decidable (ok s turn)] : (s : σ) → (turns : List τ) →
      Decidable (Allowed step ok s turns)
  | _, [] => isTrue trivial
  | s, turn :: rest =>
    haveI := Allowed.decidable step ok (step s turn) rest
    inferInstanceAs (Decidable (ok s turn ∧ Allowed step ok (step s turn) rest))

/-- An invariant of the allowed turns holds after every allowed run. -/
theorem invariant_of_allowed (preserved : ∀ s turn, Inv s → ok s turn → Inv (step s turn))
    {s : σ} (start : Inv s) {turns : List τ} (allowed : Allowed step ok s turns) :
    Inv (turns.foldl step s) := by
  induction turns generalizing s with
  | nil => exact start
  | cons turn rest ih => exact ih (preserved s turn start allowed.1) allowed.2

end Runs

end OrderedCopy
