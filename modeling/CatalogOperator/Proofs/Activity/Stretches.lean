import CatalogOperator.Proofs.Activity.Interference

/-!
# `CatalogOperator.Proofs.Activity.Stretches`: what an activity does between two sleeps

`Run.Obeys R` says that each stretch of a run, from one resumption to the next suspension or to the
end, takes the state along a relation `R`, whatever others have made of the state in between. Where
`Keeps` says what a stretch leaves alone, `Obeys` says what it does. The relation has to allow for
doing nothing and for doing two things in a row.

* `Activity.Obeys.bind`, `Activity.Obeys.within`, `Activity.Obeys.zoom`: the parts of an activity
  account for the whole.
* `Run.Obeys.state`: what the first stretch does. `Run.Obeys.state_of_leads`: where a run gets among
  others that obey as well.
-/

set_option autoImplicit false

namespace CatalogOperator

variable {σ τ α β : Type}

/-- A relation that allows for doing nothing and for doing two things in a row. -/
structure Sequential (R : σ → σ → Prop) : Prop where
  refl : ∀ s, R s s
  trans : ∀ {s t u}, R s t → R t u → R s u

namespace Run

/-- Whether each stretch of a run that starts from a state obeys a relation, whatever others do while
it sleeps. -/
def Obeys (R : σ → σ → Prop) (s : σ) : Run σ α → Prop
  | finished t _ => R s t
  | asleep t _ resume => R s t ∧ ∀ w s', (resume w s').Obeys R s'

variable {R : σ → σ → Prop} {s : σ}

/-- The first stretch of a run obeys the relation. -/
theorem Obeys.state {r : Run σ α} (h : r.Obeys R s) : R s r.state := by
  cases r with
  | finished t a => exact h
  | asleep t d resume => exact h.1

variable (hR : Sequential R)

include hR

/-- What was done before a run can be counted as part of its first stretch. -/
theorem Obeys.before {t : σ} {r : Run σ α} (h : r.Obeys R t) (hs : R s t) : r.Obeys R s := by
  cases r with
  | finished u a => exact hR.trans hs h
  | asleep u d resume => exact ⟨hR.trans hs h.1, h.2⟩

/-- Runs in a row obey a relation that each of them obeys. -/
theorem Obeys.bind {r : Run σ α} {f : α → Activity σ β} (h : r.Obeys R s)
    (hf : ∀ a t, (f a t).Obeys R t) : (r.bind f).Obeys R s := by
  induction r generalizing s with
  | finished t a => exact (hf a t).before hR h
  | asleep t d resume ih => exact ⟨h.1, fun w s' => ih w s' (h.2 w s')⟩

/-- A run that is cut short at a deadline goes on as a cancelled one, which obeys as well. -/
theorem Obeys.within {r : Run σ α} (h : r.Obeys R s) (left : Option Rat) :
    (r.within left).Obeys R s := by
  -- The time left changes from one sleep to the next, so it is generalised.
  induction r generalizing s left with
  | finished t a => exact h
  | asleep t d resume ih =>
    unfold Run.within
    split
    · exact ⟨h.1, fun w s' => ih w s' (h.2 w s') none⟩
    · split
      · refine ⟨h.1, fun w s' => ?_⟩
        cases w with
        | elapsed => exact Obeys.bind hR (h.2 .cancelled s') fun a t => hR.refl t
        | cancelled => exact ih .cancelled s' (h.2 .cancelled s') none
      · exact ⟨h.1, fun w s' => ih w s' (h.2 w s') _⟩

/-- However far a run has got, the relation leads there, provided that it allows for what others do
while the run sleeps. -/
theorem Obeys.state_of_leads {others : σ → σ → Prop} (le : ∀ s s', others s s' → R s s')
    {p q : Run σ α} (h : p.Obeys R s) (hl : Leads others p q) : R s q.state := by
  -- Each round has three parts: the run itself, the others, and what follows.
  induction hl generalizing s with
  | here r => exact h.state
  | @woken t s' d resume r w hs _ ih =>
    have hrest : R s' r.state := ih (h.2 w s')
    exact hR.trans (hR.trans h.1 (le _ _ hs)) hrest

omit hR in
/-- Every run obeys the relation that allows for everything. -/
theorem obeys_anything (r : Run σ α) (s : σ) : r.Obeys (fun _ _ => True) s := by
  induction r generalizing s with
  | finished t a => trivial
  | asleep t d resume ih => exact ⟨trivial, fun w s' => ih w s' s'⟩

omit hR in
/-- A run on a part of a larger state obeys a relation on the whole that the part accounts for. -/
theorem Obeys.zoom {get : τ → σ} {set : σ → τ → τ} {Q : τ → τ → Prop}
    (lift : ∀ whole s, R (get whole) s → Q whole (set s whole)) {whole : τ} {r : Run σ α}
    (h : r.Obeys R (get whole)) : (r.zoom get set whole).Obeys Q whole := by
  induction r generalizing whole with
  | finished t a => exact lift whole t h
  | asleep t d resume ih =>
    exact ⟨lift whole t h.1, fun w whole' => ih w (get whole') (h.2 w (get whole'))⟩

end Run

namespace Activity

/-- Whether an activity obeys a relation, from whatever state it starts. -/
def Obeys (R : σ → σ → Prop) (p : Activity σ α) : Prop :=
  ∀ s, (p s).Obeys R s

variable {R : σ → σ → Prop}

/-- A single step obeys what holds between the states before and after it. -/
theorem Obeys.step {f : σ → σ × α} (h : ∀ s, R s (f s).1) : (Activity.step f).Obeys R :=
  h

/-- An activity on a part obeys in the whole what it obeys in the part. -/
theorem Obeys.zoom {get : τ → σ} {set : σ → τ → τ} {Q : τ → τ → Prop}
    (lift : ∀ whole s, R (get whole) s → Q whole (set s whole)) {p : Activity σ α}
    (h : p.Obeys R) : (Activity.zoom get set p).Obeys Q :=
  fun whole => (h (get whole)).zoom lift

/-- An activity that is done at once obeys everything. -/
theorem Obeys.pure (hR : Sequential R) (a : α) : (Activity.pure a : Activity σ α).Obeys R :=
  hR.refl

/-- Activities in a row obey what each of them obeys. -/
theorem Obeys.bind (hR : Sequential R) {p : Activity σ α} {f : α → Activity σ β}
    (h : p.Obeys R) (hf : ∀ a, (f a).Obeys R) : (p >>= f).Obeys R :=
  fun s => (h s).bind hR hf

/-- A deadline lets nothing happen that is not obeyed without it. -/
theorem Obeys.within (hR : Sequential R) {p : Activity σ α} (h : p.Obeys R)
    (limit : Option Rat) : (Activity.within limit p).Obeys R :=
  fun s => (h s).within hR limit

end Activity

end CatalogOperator
