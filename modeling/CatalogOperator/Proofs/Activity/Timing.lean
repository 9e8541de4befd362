import CatalogOperator.Proofs.Activity.Endings

/-!
# `CatalogOperator.Proofs.Activity.Timing`: how long activities take

An activity that is not cancelled from outside takes the time of its sleeps. How many there are may
depend on what others make of the state meanwhile, so others are part of the question. A deadline after
the end of an activity makes no difference to it. A deadline before its end cancels it, and the result
tells so.

* `Run.toFinish`: the end of a run among given others, with the time it takes.
* `Run.Heeds`: a run that is cancelled ends as a postcondition says.
* `Run.toFinish_within_of_lt`, `Run.toFinish_within_of_gt`: runs that are faster than a deadline, and
  runs that are slower.
-/

set_option autoImplicit false

namespace CatalogOperator

/-- Sleeping takes some time or none. -/
theorem sleepTime_nonneg (seconds : Rat) : 0 ≤ sleepTime seconds := by
  unfold sleepTime
  split
  · exact Rat.le_refl
  · next h => exact Rat.le_of_lt (Rat.not_le.mp h)

/-- The end of a run: the seconds it took, and the state and the result in which it ended. -/
structure Finish (σ α : Type) where
  time : Rat
  state : σ
  result : α

namespace Run

variable {σ α β : Type}

/-- The end of a run that is not cancelled. In its sleep of each number others make of the state what
the function of that number does. -/
def toFinish (others : Nat → σ → σ) : Run σ α → Finish σ α
  | finished t a => { time := 0, state := t, result := a }
  | asleep t d resume =>
    let rest := (resume .elapsed (others 0 t)).toFinish fun n => others (n + 1)
    { rest with time := sleepTime d + rest.time }

/-- The end of a run comes after its first sleep. -/
theorem toFinish_asleep (others : Nat → σ → σ) (t : σ) (d : Rat) (resume : Wake → σ → Run σ α) :
    (asleep t d resume).toFinish others =
      let rest := (resume .elapsed (others 0 t)).toFinish fun n => others (n + 1)
      { rest with time := sleepTime d + rest.time } :=
  rfl

/-- No run takes less than no time. -/
theorem time_nonneg (others : Nat → σ → σ) (r : Run σ α) : 0 ≤ (r.toFinish others).time := by
  induction r generalizing others with
  | finished t a => exact Rat.le_refl
  | asleep t d resume ih => exact Rat.add_nonneg (sleepTime_nonneg d) (ih .elapsed _ _)

/-- What is done to the result of a run takes no time. -/
theorem toFinish_map (others : Nat → σ → σ) (r : Run σ α) (f : α → β) :
    (r.bind fun a => Activity.pure (f a)).toFinish others =
      { r.toFinish others with result := f (r.toFinish others).result } := by
  induction r generalizing others with
  | finished t a => rfl
  | asleep t d resume ih =>
    show (asleep t d fun w s => (resume w s).bind fun a => Activity.pure (f a)).toFinish others = _
    rw [toFinish_asleep, ih, toFinish_asleep]

/-- A run that ends as a postcondition says does so among given others. -/
theorem Ends.toFinish {post : σ → α → Prop} {r : Run σ α} (h : r.Ends (fun _ _ => True) post)
    (others : Nat → σ → σ) : post (r.toFinish others).state (r.toFinish others).result := by
  induction r generalizing others with
  | finished t a => exact h
  | asleep t d resume ih => exact ih .elapsed _ (h _ trivial) _

/-- Whether a run that is cancelled in any of its sleeps goes on to end as a postcondition says,
whatever others have done. -/
def Heeds (post : α → Prop) : Run σ α → Prop
  | finished _ _ => True
  | asleep _ _ resume => ∀ s, (resume .cancelled s).Ends (fun _ _ => True) (fun _ a => post a) ∧
      (resume .elapsed s).Heeds post

variable {others : Nat → σ → σ} {limit : Option Rat} {l : Rat}

/-- A run that ends before the deadline, if there is one, ends as it does by itself. -/
theorem toFinish_within_of_lt {r : Run σ α}
    (h : ∀ l, limit = some l → (r.toFinish others).time < l) :
    (r.within limit).toFinish others =
      { r.toFinish others with result := ((r.toFinish others).result, false) } := by
  -- The time left changes from one sleep to the next, so it is generalised.
  induction r generalizing others limit with
  | finished t a => rfl
  | asleep t d resume ih =>
    unfold within
    split
    · rw [toFinish_asleep, ih .elapsed _ (by simp), toFinish_asleep]
    · next l =>
      have htime : sleepTime d + ((resume .elapsed (others 0 t)).toFinish _).time < l := h l rfl
      have hrest := time_nonneg (fun n => others (n + 1)) (resume .elapsed (others 0 t))
      rw [if_neg (by grind), toFinish_asleep, ih .elapsed _ fun l' hl' => ?_, toFinish_asleep]
      cases hl'
      grind

/-- A run that would end after the deadline is cut short there, and ends as it does when cancelled. -/
theorem toFinish_within_of_gt {post : α → Prop} {r : Run σ α} (hl : 0 ≤ l)
    (h : l < (r.toFinish others).time) (hheeds : r.Heeds post) :
    ((r.within (some l)).toFinish others).result.2 = true ∧
      post ((r.within (some l)).toFinish others).result.1 := by
  induction r generalizing others l with
  | finished t a =>
    have hzero : l < 0 := h
    exact absurd hzero (Rat.not_lt.mpr hl)
  | asleep t d resume ih =>
    unfold within
    dsimp only
    split
    · -- This sleep reaches the deadline, so the run is woken as a cancelled one.
      rw [toFinish_asleep]
      dsimp only
      have hcut := toFinish_map (fun n => others (n + 1)) (resume .cancelled (others 0 t))
        fun a => (a, true)
      have hends := (hheeds (others 0 t)).1.toFinish fun n => others (n + 1)
      refine ⟨?_, ?_⟩
      · exact congrArg (·.result.2) hcut
      · exact (congrArg (·.result.1) hcut) ▸ hends
    · next hle =>
      have htime : l < sleepTime d + ((resume .elapsed (others 0 t)).toFinish _).time := h
      rw [toFinish_asleep]
      exact ih .elapsed _ (by grind) (by grind) (hheeds _).2

end Run

end CatalogOperator
