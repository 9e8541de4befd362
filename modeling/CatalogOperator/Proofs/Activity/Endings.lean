import CatalogOperator.Proofs.Activity.Interference

/-!
# `CatalogOperator.Proofs.Activity.Endings`: activities that come to their end

`Run.Ends others post` says that a run comes to its end, whatever others do within a relation while
it sleeps, provided that nobody cancels it; and that the state and the result in which it ends satisfy
a postcondition. Where `Keeps` and `Obeys` say what a run does on the way, `Ends` also promises that
there is an end.

* `Run.Ends.bind`, `Run.Ends.within_none`, `Run.Ends.zoom`: an end is promised from those of the
  parts.
* `Run.Ends.exists_leads`: others that may do nothing let a run get to its end.
-/

set_option autoImplicit false

namespace CatalogOperator

namespace Run

variable {σ τ α β : Type}

/-- Whether a run that is not cancelled comes to its end among others, and ends as a postcondition
says. -/
def Ends (others : σ → σ → Prop) (post : σ → α → Prop) : Run σ α → Prop
  | finished t a => post t a
  | asleep t _ resume => ∀ s', others t s' → (resume .elapsed s').Ends others post

variable {others : σ → σ → Prop} {post post' : σ → α → Prop}

/-- A weaker postcondition holds as well. -/
theorem Ends.mono (le : ∀ t a, post t a → post' t a) {r : Run σ α} (h : r.Ends others post) :
    r.Ends others post' := by
  induction r with
  | finished t a => exact le t a h
  | asleep t d resume ih => exact fun s' hs => ih .elapsed s' (h s' hs)

/-- Runs in a row come to their end if each of them does. -/
theorem Ends.bind {r : Run σ α} {f : α → Activity σ β} {Q : σ → β → Prop}
    (h : r.Ends others post) (hf : ∀ a t, post t a → (f a t).Ends others Q) :
    (r.bind f).Ends others Q := by
  induction r with
  | finished t a => exact hf a t h
  | asleep t d resume ih => exact fun s' hs => ih .elapsed s' (h s' hs)

/-- The same for activities. -/
theorem Ends.andThen {p : Activity σ α} {f : α → Activity σ β} {s : σ} {Q : σ → β → Prop}
    (h : (p s).Ends others post) (hf : ∀ a t, post t a → (f a t).Ends others Q) :
    ((p >>= f) s).Ends others Q :=
  h.bind hf

/-- Without a deadline a run ends as it does by itself, and in time. -/
theorem Ends.within_none {r : Run σ α} (h : r.Ends others post) :
    (r.within none).Ends others fun t x => post t x.1 ∧ x.2 = false := by
  induction r with
  | finished t a => exact ⟨h, rfl⟩
  | asleep t d resume ih => exact fun s' hs => ih .elapsed s' (h s' hs)

/-- A run on a part of a larger state ends if others leave the part as its own run asks for. -/
theorem Ends.zoom {get : τ → σ} {set : σ → τ → τ} (get_set : ∀ s whole, get (set s whole) = s)
    {whole : τ} {r : Run σ α} (h : r.Ends others post) :
    (r.zoom get set whole).Ends (fun w w' => others (get w) (get w'))
      fun w a => post (get w) a := by
  induction r generalizing whole with
  | finished t a =>
    show post (get (set t whole)) a
    rw [get_set]
    exact h
  | asleep t d resume ih =>
    intro whole' hs
    have hs' : others t (get whole') := by
      rw [← get_set t whole]
      exact hs
    exact ih .elapsed (get whole') (h (get whole') hs')

/-- The result of a run that never sleeps. -/
def result? : Run σ α → Option α
  | finished _ a => some a
  | asleep _ _ _ => none

/-- A run that never sleeps has finished in its state with its result. -/
theorem eq_finished_of_result? {r : Run σ α} {a : α} (h : r.result? = some a) :
    r = finished r.state a := by
  cases r with
  | finished t b =>
    cases h
    rfl
  | asleep t d resume => cases h

/-- So its state and its result are as it has been promised. -/
theorem Ends.post_of_result? {r : Run σ α} {a : α} (h : r.Ends others post)
    (hr : r.result? = some a) : post r.state a := by
  rw [eq_finished_of_result? hr] at h
  exact h

/-- Others that may do nothing let a run get to its end. -/
theorem Ends.exists_leads (refl : ∀ s, others s s) {r : Run σ α} (h : r.Ends others post) :
    ∃ t a, Leads others r (finished t a) ∧ post t a := by
  induction r with
  | finished t a => exact ⟨t, a, .here _, h⟩
  | asleep t d resume ih =>
    obtain ⟨u, a, hl, hu⟩ := ih .elapsed t (h t (refl t))
    exact ⟨u, a, .woken .elapsed (refl t) hl, hu⟩

end Run

end CatalogOperator
