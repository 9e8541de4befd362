import CatalogOperator.Proofs.Activity.Stretches
import Mathlib.Logic.Function.Basic

/-!
# `CatalogOperator.Proofs.Activity.Invariants`: what holds while activities sleep

Activities that take turns on one state rely on what holds of it whenever all of them are asleep. A
stretch of an activity may break an invariant and repair it, as long as it holds again when the
activity falls asleep.

* `Run.Maintains`: a run leaves the state with an invariant whenever it falls asleep, and with a
  postcondition at its end.
* `Run.Maintains.bind`, `Run.Maintains.within`: the parts account for the whole.
* `Run.Obeys.maintains`: a run whose stretches obey a relation maintains what the relation preserves.
* `Run.rest?`: what is left of a run that has fallen asleep. `Run.Maintains.of_rest?`,
  `Run.Obeys.of_rest?`: it goes on as the run was bound to. `Run.forall_update_rest?`: so do all of
  several sleeping runs when one of them has gone on.
* `Run.zoom_bind`: two runs in sequence on a part of a larger state.
-/

set_option autoImplicit false

namespace CatalogOperator

variable {σ τ α β : Type}

namespace Run

/-- What is left of a run that has fallen asleep. -/
def rest? : Run σ α → Option (Wake → σ → Run σ α)
  | finished _ _ => none
  | asleep _ _ resume => some resume

/-- Whether a run leaves the state with an invariant whenever it falls asleep, provided that the state
has it whenever the run is resumed, and ends as a postcondition says. -/
def Maintains (I : σ → Prop) (post : σ → α → Prop) : Run σ α → Prop
  | finished t a => post t a
  | asleep t _ resume => I t ∧ ∀ w s, I s → (resume w s).Maintains I post

variable {I : σ → Prop} {post post' : σ → α → Prop}

/-- A weaker postcondition holds as well. -/
theorem Maintains.mono (le : ∀ t a, post t a → post' t a) {r : Run σ α} (h : r.Maintains I post) :
    r.Maintains I post' := by
  induction r with
  | finished t a => exact le t a h
  | asleep t d resume ih => exact ⟨h.1, fun w s hs => ih w s (h.2 w s hs)⟩

/-- Runs in a row maintain what each of them maintains. -/
theorem Maintains.bind {r : Run σ α} {f : α → Activity σ β} {Q : σ → β → Prop}
    (h : r.Maintains I post) (hf : ∀ a t, post t a → (f a t).Maintains I Q) :
    (r.bind f).Maintains I Q := by
  induction r with
  | finished t a => exact hf a t h
  | asleep t d resume ih => exact ⟨h.1, fun w s hs => ih w s (h.2 w s hs)⟩

/-- The same for activities. -/
theorem Maintains.andThen {p : Activity σ α} {f : α → Activity σ β} {s : σ} {Q : σ → β → Prop}
    (h : (p s).Maintains I post) (hf : ∀ a t, post t a → (f a t).Maintains I Q) :
    ((p >>= f) s).Maintains I Q :=
  h.bind hf

/-- A run that is cut short at a deadline goes on as a cancelled one, which maintains the invariant as
well. -/
theorem Maintains.within {r : Run σ α} (h : r.Maintains I post) (left : Option Rat) :
    (r.within left).Maintains I fun t x => post t x.1 := by
  -- The time left changes from one sleep to the next, so it is generalised.
  induction r generalizing left with
  | finished t a => exact h
  | asleep t d resume ih =>
    unfold Run.within
    split
    · exact ⟨h.1, fun w s hs => ih w s (h.2 w s hs) none⟩
    · split
      · refine ⟨h.1, fun w s hs => ?_⟩
        cases w with
        | elapsed => exact (h.2 .cancelled s hs).bind fun a t ha => ha
        | cancelled => exact ih .cancelled s (h.2 .cancelled s hs) none
      · exact ⟨h.1, fun w s hs => ih w s (h.2 w s hs) _⟩

/-- A run whose stretches obey a relation maintains what the relation preserves. -/
theorem Obeys.maintains {R : σ → σ → Prop} {s : σ} {r : Run σ α} (h : r.Obeys R s)
    (hR : ∀ s t, R s t → I s → I t) (hs : I s) : r.Maintains I fun t _ => I t := by
  induction r generalizing s with
  | finished t a => exact hR s t h hs
  | asleep t d resume ih => exact ⟨hR s t h.1 hs, fun w s' hs' => ih w s' (h.2 w s') hs'⟩

/-- What is left of a run goes on to obey the relation, whatever the state has become. -/
theorem Obeys.of_rest? {R : σ → σ → Prop} {s : σ} {r : Run σ α} (h : r.Obeys R s)
    {resume : Wake → σ → Run σ α} (hr : r.rest? = some resume) (w : Wake) (t : σ) :
    (resume w t).Obeys R t := by
  cases r with
  | finished u a => cases hr
  | asleep u d resume =>
    cases hr
    exact h.2 w t

/-- The invariant holds after the first stretch. -/
theorem Maintains.state {r : Run σ α} (h : r.Maintains I fun t _ => I t) : I r.state := by
  cases r with
  | finished t a => exact h
  | asleep t d resume => exact h.1

/-- What is left of the run goes on to maintain it. -/
theorem Maintains.of_rest? {r : Run σ α} (h : r.Maintains I post) {resume : Wake → σ → Run σ α}
    (hr : r.rest? = some resume) (w : Wake) {s : σ} (hs : I s) : (resume w s).Maintains I post := by
  cases r with
  | finished t a => cases hr
  | asleep t d resume =>
    cases hr
    exact h.2 w s hs

/-- What holds of the rest of every sleeping run, by their keys, still does after the run with a key
has gone on, if it holds of what is left of that one. -/
theorem forall_update_rest? {κ : Type} [DecidableEq κ] {asleep : κ → Option (Wake → σ → Run σ α)}
    {P : (Wake → σ → Run σ α) → Prop} (h : ∀ k resume, asleep k = some resume → P resume) (key : κ)
    {r : Run σ α} (hr : ∀ resume, r.rest? = some resume → P resume) :
    ∀ k resume, Function.update asleep key r.rest? k = some resume → P resume := by
  intro k resume hresume
  by_cases hk : k = key
  · subst hk
    rw [Function.update_self] at hresume
    exact hr resume hresume
  · rw [Function.update_of_ne hk] at hresume
    exact h k resume hresume

section Parts

variable (get : τ → σ) (set : σ → τ → τ) (set_set : ∀ s s' whole, set s (set s' whole) = set s whole)

include set_set

/-- What a part was before does not matter to a run on it. -/
theorem zoom_set (r : Run σ α) (s : σ) (whole : τ) :
    r.zoom get set (set s whole) = r.zoom get set whole := by
  cases r with
  | finished t a => simp only [zoom, set_set]
  | asleep t d resume => simp only [zoom, set_set]

/-- Two runs in sequence on a part are the runs on the part in sequence. -/
theorem zoom_bind (get_set : ∀ s whole, get (set s whole) = s) (r : Run σ α)
    (f : α → Activity σ β) (whole : τ) :
    (r.bind f).zoom get set whole = (r.zoom get set whole).bind fun a => (f a).zoom get set := by
  induction r generalizing whole with
  | finished t a =>
    show (f a t).zoom get set whole = (f a (get (set t whole))).zoom get set (set t whole)
    rw [get_set, zoom_set get set set_set]
  | asleep t d resume ih =>
    show asleep _ _ _ = asleep _ _ _
    congr
    funext w whole'
    exact ih w (get whole') whole'

end Parts

end Run

end CatalogOperator
