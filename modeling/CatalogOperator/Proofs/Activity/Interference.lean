import CatalogOperator.Activity

/-!
# `CatalogOperator.Proofs.Activity.Interference`: activities among others

While an activity sleeps, others may change the state it works on. `Run.Leads` says how far a run
can get among others whose changes stay within a relation.

`Run.Keeps view post` is the guarantee of a single activity: each stretch of its run, from one
resumption to the next suspension, leaves a view of the state as it was, whatever others did in
between, and what the run ends with satisfies `post`.

* `Run.leads_bind`: a run of two activities in sequence is still in the first one, or the first
  one has ended and the second one is under way.
* `Activity.Keeps.bind`, `Activity.Keeps.within`, `Activity.Keeps.zoom`: a guarantee is proved
  from those of the parts.
* `Run.Keeps.view_eq_of_leads`: among others that keep the view too, it never changes.
-/

set_option autoImplicit false

namespace CatalogOperator

variable {σ τ α β γ : Type}

namespace Run

/-- The state in which a run has ended or fallen asleep. -/
def state : Run σ α → σ
  | finished s _ => s
  | asleep s _ _ => s

/-- A run that has finished is in the state in which it has finished. -/
@[simp] theorem state_finished (s : σ) (a : α) : (finished s a).state = s :=
  rfl

/-- How far a run can get: it is resumed any number of times, each time for any reason, on a state
that others have made of the one in which it fell asleep. -/
inductive Leads (others : σ → σ → Prop) : Run σ α → Run σ α → Prop
  | here (r : Run σ α) : Leads others r r
  | woken {s s' : σ} {d : Rat} {resume : Wake → σ → Run σ α} {r : Run σ α} (w : Wake) :
    others s s' → Leads others (resume w s') r → Leads others (asleep s d resume) r

variable {others : σ → σ → Prop}

/-- How far a run gets can be told in two parts. -/
theorem Leads.trans {p q r : Run σ α} (h : Leads others p q) (h' : Leads others q r) :
    Leads others p r := by
  induction h with
  | here => exact h'
  | woken w hs _ ih => exact .woken w hs (ih h')

/-- Others with more freedom can let a run get as far. -/
theorem Leads.mono {others' : σ → σ → Prop} (le : ∀ s s', others s s' → others' s s')
    {p q : Run σ α} (h : Leads others p q) : Leads others' p q := by
  induction h with
  | here r => exact .here r
  | woken w hs _ ih => exact .woken w (le _ _ hs) ih

/-- A run that has ended gets no further. -/
theorem leads_finished {s : σ} {a : α} {r : Run σ α} (h : Leads others (finished s a) r) :
    r = finished s a := by
  cases h
  rfl

/-- A run of two activities in sequence either sleeps in the first one, or the first one has ended
and the second one has got there. -/
theorem leads_bind {r : Run σ α} {f : α → Activity σ β} {c : Run σ β}
    (h : Leads others (r.bind f) c) :
    (∃ s d resume, Leads others r (asleep s d resume) ∧ c = (asleep s d resume).bind f) ∨
      ∃ t a, Leads others r (finished t a) ∧ Leads others (f a t) c := by
  -- The induction is on the first part: each of its sleeps is one of the whole.
  induction r with
  | finished s a => exact .inr ⟨s, a, .here _, h⟩
  | asleep s d resume ih =>
    cases h with
    | here => exact .inl ⟨s, d, resume, .here _, rfl⟩
    | woken w hs hr =>
      rcases ih w _ hr with ⟨s', d', resume', hl, hc⟩ | ⟨t, a, hl, hc⟩
      · exact .inl ⟨s', d', resume', .woken w hs hl, hc⟩
      · exact .inr ⟨t, a, .woken w hs hl, hc⟩

/-- A sequence that has ended went through the end of its first part. -/
theorem leads_bind_finished {r : Run σ α} {f : α → Activity σ β} {t : σ} {b : β}
    (h : Leads others (r.bind f) (finished t b)) :
    ∃ u a, Leads others r (finished u a) ∧ Leads others (f a u) (finished t b) := by
  rcases leads_bind h with ⟨_, _, _, _, hc⟩ | h
  · cases hc
  · exact h

/-! ### Guarantees -/

/-- Whether each stretch of a run that starts from a state leaves a view of the state as it was,
whatever others do while it sleeps, and what the run ends with satisfies a postcondition. -/
def Keeps (view : σ → γ) (post : α → Prop) (s : σ) : Run σ α → Prop
  | finished t a => view t = view s ∧ post a
  | asleep t _ resume => view t = view s ∧ ∀ w s', (resume w s').Keeps view post s'

variable {view : σ → γ} {post post' : α → Prop} {s : σ}

/-- The first stretch of a run leaves the view as it was. -/
theorem Keeps.view_state {r : Run σ α} (h : r.Keeps view post s) : view r.state = view s := by
  cases r with
  | finished t a => exact h.1
  | asleep t d resume => exact h.1

/-- A run can be taken to start from any state of the same view. -/
theorem Keeps.start {s' : σ} {r : Run σ α} (h : r.Keeps view post s) (hs : view s = view s') :
    r.Keeps view post s' := by
  cases r with
  | finished t a => exact ⟨h.1.trans hs, h.2⟩
  | asleep t d resume => exact ⟨h.1.trans hs, h.2⟩

/-- A weaker postcondition holds as well. -/
theorem Keeps.mono (le : ∀ a, post a → post' a) {r : Run σ α} (h : r.Keeps view post s) :
    r.Keeps view post' s := by
  induction r generalizing s with
  | finished t a => exact ⟨h.1, le a h.2⟩
  | asleep t d resume ih => exact ⟨h.1, fun w s' => ih w s' (h.2 w s')⟩

/-- Postconditions of two guarantees hold together. -/
theorem Keeps.and {view' : σ → τ} {r : Run σ α} (h : r.Keeps view post s)
    (h' : r.Keeps view' post' s) : r.Keeps view (fun a => post a ∧ post' a) s := by
  induction r generalizing s with
  | finished t a => exact ⟨h.1, h.2, h'.2⟩
  | asleep t d resume ih => exact ⟨h.1, fun w s' => ih w s' (h.2 w s') (h'.2 w s')⟩

/-- Runs in a row keep what each of them keeps. -/
theorem Keeps.bind {r : Run σ α} {f : α → Activity σ β} {Q : β → Prop} (h : r.Keeps view post s)
    (hf : ∀ a, post a → ∀ t, (f a t).Keeps view Q t) : (r.bind f).Keeps view Q s := by
  induction r generalizing s with
  | finished t a => exact (hf a h.2 t).start h.1
  | asleep t d resume ih => exact ⟨h.1, fun w s' => ih w s' (h.2 w s')⟩

/-- A deadline takes nothing from a guarantee: a run that is cut short goes on as a cancelled
one. -/
theorem Keeps.within {r : Run σ α} (h : r.Keeps view post s) (left : Option Rat) :
    (r.within left).Keeps view (fun a => post a.1) s := by
  -- The time left changes from one sleep to the next, so it is generalised.
  induction r generalizing s left with
  | finished t a => exact h
  | asleep t d resume ih =>
    unfold Run.within
    split
    · exact ⟨h.1, fun w s' => ih w s' (h.2 w s') none⟩
    · split
      · refine ⟨h.1, fun w s' => ?_⟩
        cases w with
        -- The sleep is cut short: whatever the run does when cancelled is under the guarantee.
        | elapsed => exact Keeps.bind (h.2 .cancelled s') fun a ha t => ⟨rfl, ha⟩
        | cancelled => exact ih .cancelled s' (h.2 .cancelled s') none
      · exact ⟨h.1, fun w s' => ih w s' (h.2 w s') _⟩

/-- A guarantee on a part of a larger state is one on the whole. -/
theorem Keeps.zoom {get : τ → σ} {set : σ → τ → τ} (get_set : ∀ s whole, get (set s whole) = s)
    {whole : τ} {r : Run σ α} (h : r.Keeps view post (get whole)) :
    (r.zoom get set whole).Keeps (fun w => view (get w)) post whole := by
  have same : ∀ t, view t = view (get whole) → view (get (set t whole)) = view (get whole) := by
    intro t ht
    rw [get_set]
    exact ht
  induction r generalizing whole with
  | finished t a => exact ⟨same t h.1, h.2⟩
  | asleep t d resume ih =>
    refine ⟨same t h.1, fun w whole' => ih w (get whole') (h.2 w (get whole')) ?_⟩
    intro t' ht'
    rw [get_set]
    exact ht'

/-- Every run guarantees nothing. -/
theorem keeps_nothing (r : Run σ α) (s : σ) : r.Keeps (fun _ => ()) (fun _ => True) s := by
  induction r generalizing s with
  | finished t a => exact ⟨rfl, trivial⟩
  | asleep t d resume ih => exact ⟨rfl, fun w s' => ih w s' s'⟩

/-- Wherever a run gets, its guarantee holds of the rest of it. -/
theorem Keeps.of_leads {p q : Run σ α} (h : p.Keeps view post s) (hl : Leads others p q) :
    ∃ s', q.Keeps view post s' := by
  induction hl generalizing s with
  | here r => exact ⟨s, h⟩
  | woken w _ _ ih => exact ih (h.2 w _)

/-- Among others that keep the view as well, it never changes. -/
theorem Keeps.view_eq_of_leads {p q : Run σ α} (h : p.Keeps view post s)
    (hl : Leads (fun s s' => view s' = view s) p q) : view q.state = view s := by
  -- Each round has three parts that keep the view: the run itself, the others, and what follows.
  induction hl generalizing s with
  | here r => exact h.view_state
  | woken w hs _ ih => rw [ih (h.2 w _), hs, h.1]

/-- What a run ends with satisfies the postcondition. -/
theorem Keeps.post_of_leads {p : Run σ α} {t : σ} {a : α} (h : p.Keeps view post s)
    (hl : Leads others p (finished t a)) : post a := by
  obtain ⟨s', h'⟩ := h.of_leads hl
  exact h'.2

end Run

namespace Activity

/-- Whether an activity keeps a view of the state, from whatever state it starts. -/
def Keeps (view : σ → γ) (post : α → Prop) (p : Activity σ α) : Prop :=
  ∀ s, (p s).Keeps view post s

variable {view : σ → γ} {post : α → Prop}

/-- An activity that is done at once keeps everything. -/
theorem Keeps.pure {a : α} (h : post a) : (Activity.pure a : Activity σ α).Keeps view post :=
  fun _ => ⟨rfl, h⟩

/-- A single step keeps what it does not change. -/
theorem Keeps.step {f : σ → σ × α} (h : ∀ s, view (f s).1 = view s ∧ post (f s).2) :
    (Activity.step f).Keeps view post :=
  h

/-- A weaker postcondition holds as well. -/
theorem Keeps.mono {post' : α → Prop} {p : Activity σ α} (h : p.Keeps view post)
    (le : ∀ a, post a → post' a) : p.Keeps view post' :=
  fun s => (h s).mono le

/-- An activity that keeps each of two views comes out as both demand. -/
theorem Keeps.and {view' : σ → τ} {post' : α → Prop} {p : Activity σ α} (h : p.Keeps view post)
    (h' : p.Keeps view' post') : p.Keeps view fun a => post a ∧ post' a :=
  fun s => (h s).and (h' s)

/-- Activities in a row keep what each of them keeps. -/
theorem Keeps.bind {p : Activity σ α} {f : α → Activity σ β} {Q : β → Prop}
    (h : p.Keeps view post) (hf : ∀ a, post a → (f a).Keeps view Q) : (p >>= f).Keeps view Q :=
  fun s => (h s).bind hf

/-- A deadline lets nothing be changed that is kept without it. -/
theorem Keeps.within {p : Activity σ α} (h : p.Keeps view post) (limit : Option Rat) :
    (Activity.within limit p).Keeps view fun a => post a.1 :=
  fun s => (h s).within limit

/-- An activity on a part keeps in the whole what it keeps in the part. -/
theorem Keeps.zoom {get : τ → σ} {set : σ → τ → τ} (get_set : ∀ s whole, get (set s whole) = s)
    {p : Activity σ α} (h : p.Keeps view post) :
    (Activity.zoom get set p).Keeps (fun w => view (get w)) post :=
  fun whole => (h (get whole)).zoom get_set

end Activity

end CatalogOperator
