import CatalogOperator.Proofs.Operator.Turns
import CatalogOperator.Proofs.WorkQueue.RateLimit

/-!
# `CatalogOperator.Proofs.Operator.Retries`: what the end of a reconcile means for its key

When a reconcile of a key ends, the queue of the controller learns of it. The failures of the key are
cleared if there is nothing to be tried again, or if the resource reached no handler of its own. Any other
failure is counted and starts a timer for the key. A cancellation is passed on and does neither.

So the number of failures that a queue holds for a key is that of the results in a row that had it tried
again. Other keys, and other requests to the queue, do not matter for it.

* `conclude_of_cleared`, `conclude_of_retried`, `conclude_of_cancelled`: the three kinds of results.
* `inARow`: the results at the end that had a key tried again.
* `Processed`: the reconciles that have ended at a controller, whatever else happened to it.
  `Turns.processed` says that this is what the operator does to a controller.
* `Processed.requeues`: the results in a row are what is counted.
* `counted_in_a_row`: what one more result does, while the queue is open and its delays are doubles.
-/

set_option autoImplicit false

namespace CatalogOperator.Proofs.Operation

open Queue

/-! ### The three kinds of results -/

/-- Whether the result of a reconcile clears the failures of the key. -/
def Cleared : Except Fault Bool → Prop
  | .ok again => again = false
  | .error f => f.isDispatchError = true

/-- Whether a reconcile was cancelled. -/
def Cancelled : Except Fault Bool → Prop
  | .ok _ => False
  | .error f => f.isCancellation = true

instance : DecidablePred Retried
  | .ok again => inferInstanceAs (Decidable (again = true))
  | .error f => inferInstanceAs (Decidable (f.isDispatchError = false ∧ f.isCancellation = false))

instance : DecidablePred Cancelled
  | .ok _ => inferInstanceAs (Decidable False)
  | .error f => inferInstanceAs (Decidable (f.isCancellation = true))

section

variable {r : Except Fault Bool}

/-- A reconcile clears the failures, has the key tried again or was cancelled. -/
theorem cleared_or_retried_or_cancelled (r : Except Fault Bool) :
    Cleared r ∨ Retried r ∨ Cancelled r := by
  cases r with
  | ok again => cases again <;> simp [Cleared, Retried]
  | error f => cases hd : f.isDispatchError <;> cases hc : f.isCancellation <;>
      simp [Cleared, Retried, Cancelled, hd, hc]

/-- A reconcile that was cancelled has ended with a cancellation. -/
theorem Cancelled.exists_fault (h : Cancelled r) :
    ∃ f, r = .error f ∧ f.isCancellation = true := by
  cases r with
  | ok => cases h
  | error f => exact ⟨f, rfl, h⟩

/-- A cancellation is no dispatch error. -/
theorem Cancelled.not_cleared (h : Cancelled r) : ¬ Cleared r := by
  cases r with
  | ok => cases h
  | error f => cases f <;> simp_all [Cancelled, Cleared, Fault.isCancellation, Fault.isDispatchError]

/-- A reconcile that was cancelled does not have the key tried again. -/
theorem Cancelled.not_retried (h : Cancelled r) : ¬ Retried r := by
  cases r with
  | ok => cases h
  | error f => simp [Retried, show f.isCancellation = true from h]

/-- A reconcile that clears the failures does not have the key tried again. -/
theorem Cleared.not_retried (h : Cleared r) : ¬ Retried r := by
  cases r with
  | ok again => simp [Retried, show again = false from h]
  | error f => simp [Retried, show f.isDispatchError = true from h]

/-- After a result that clears the failures there are none. -/
theorem failuresAfter_of_cleared (h : Cleared r) (n : Nat) : failuresAfter n r = 0 := by
  cases r with
  | ok again => simp [failuresAfter, show again = false from h]
  | error f => simp [failuresAfter, show f.isDispatchError = true from h]

/-- A cancellation leaves the failures as they are. -/
theorem failuresAfter_of_cancelled (h : Cancelled r) (n : Nat) : failuresAfter n r = n := by
  have hs := h.not_cleared
  cases r with
  | ok => cases h
  | error f =>
    simp [failuresAfter, show f.isDispatchError ≠ true from hs, show f.isCancellation = true from h]

end

section

variable {δ : Type} {r : Except Fault Bool}

/-- At the end of a reconcile that clears its failures the key is forgotten. -/
theorem conclude_of_cleared (c : Controller δ) (now : Rat) (k : ObjectKey) (h : Cleared r) :
    c.conclude now k r = ({ c with queue := c.queue.forget k }, .ok ()) := by
  cases r with
  | ok again => rw [show again = false from h]; rfl
  | error f => exact if_pos h

/-- At the end of a reconcile that has it tried again the key is added after its backoff delay. -/
theorem conclude_of_retried (c : Controller δ) (now : Rat) (k : ObjectKey) (h : Retried r) :
    c.conclude now k r =
      ({ c with queue := (c.queue.addRateLimited now k).1 }, (c.queue.addRateLimited now k).2) := by
  cases r with
  | ok again => rw [show again = true from h]; rfl
  | error f => simp [Controller.conclude, h.1, h.2]

/-- At the end of a reconcile that was cancelled nothing is done, and the cancellation goes on. -/
theorem conclude_of_cancelled (c : Controller δ) (now : Rat) (k : ObjectKey) {f : Fault}
    (h : f.isCancellation = true) : c.conclude now k (.error f) = (c, .error f) := by
  have hd : f.isDispatchError ≠ true := Cancelled.not_cleared (r := .error f) h
  simp [Controller.conclude, hd, h]

/-- The failures are counted for the key that was reconciled, and for no other one. -/
theorem requeues_conclude (c : Controller δ) (now : Rat) (k k' : ObjectKey) (r : Except Fault Bool) :
    (c.conclude now k r).1.queue.requeues k' =
      if k = k' then failuresAfter (c.queue.requeues k') r else c.queue.requeues k' := by
  rcases cleared_or_retried_or_cancelled r with h | h | h
  · rw [conclude_of_cleared c now k h, failuresAfter_of_cleared h]
    exact requeues_forget c.queue k k'
  · rw [conclude_of_retried c now k h, failuresAfter_of_retried h]
    exact requeues_addRateLimited c.queue now k k'
  · obtain ⟨f, rfl, hf⟩ := h.exists_fault
    rw [failuresAfter_of_cancelled h, ite_self, conclude_of_cancelled c now k hf]

end

/-! ### The results in a row -/

/-- The number of results at the end that have a key tried again, cancellations aside. If all do, the
failures from before are in the same row. -/
def inARow (before : Nat) (rs : List (Except Fault Bool)) : Nat :=
  let counted := rs.filter fun r => ¬ Cancelled r
  (counted.reverse.takeWhile fun r => Retried r).length +
    if ∀ r ∈ counted, Retried r then before else 0

/-- Without results the failures are those from before. -/
theorem inARow_nil (n : Nat) : inARow n [] = n := by
  simp [inARow]

/-- The failures in a row are counted result by result. -/
theorem inARow_snoc (n : Nat) (rs : List (Except Fault Bool)) (r : Except Fault Bool) :
    inARow n (rs ++ [r]) = failuresAfter (inARow n rs) r := by
  unfold inARow
  dsimp only
  rw [List.filter_append]
  generalize (rs.filter fun r => ¬ Cancelled r) = counted
  -- A cancellation is not among the results that count, whatever was there before.
  have hkept : ¬ Cancelled r → [r].filter (fun r => ¬ Cancelled r) = [r] := fun hc => by simp [hc]
  rcases cleared_or_retried_or_cancelled r with h | h | h
  · -- The row ends here, so what was counted before is out of it too.
    have hnot : ¬ ∀ r' ∈ counted ++ [r], Retried r' := fun hall => h.not_retried (hall r (by simp))
    rw [failuresAfter_of_cleared h, hkept fun hc => hc.not_cleared h, if_neg hnot]
    simp [h.not_retried]
  · have hall : (∀ r' ∈ counted ++ [r], Retried r') ↔ ∀ r' ∈ counted, Retried r' := by
      simp [or_imp, forall_and, h]
    rw [failuresAfter_of_retried h, hkept fun hc => hc.not_retried h, if_congr hall rfl rfl]
    simp [h, Nat.add_right_comm]
  · have hdropped : [r].filter (fun r => ¬ Cancelled r) = [] := by simp [h]
    rw [failuresAfter_of_cancelled h, hdropped, List.append_nil]

/-- The results of one key among those of all. -/
def resultsOf (k : ObjectKey) (h : List (ObjectKey × Except Fault Bool)) : List (Except Fault Bool) :=
  (h.filter fun e => e.1 = k).map (·.2)

/-- The reconciles that have ended at a controller, with their keys and results in order, whatever
happened in between. -/
inductive Processed {δ : Type} (c₀ : Controller δ) :
    List (ObjectKey × Except Fault Bool) → Controller δ → Prop
  | start : Processed c₀ [] c₀
  /-- A reconcile of a key ends with a result. -/
  | ended {h : List (ObjectKey × Except Fault Bool)} {c : Controller δ} (now : Rat) (k : ObjectKey)
    (r : Except Fault Bool) : Processed c₀ h c →
    Processed c₀ (h ++ [(k, r)]) (c.conclude now k r).1
  /-- The queue is asked for anything but to count or forget failures. -/
  | requested {h : List (ObjectKey × Except Fault Bool)} {c : Controller δ}
    (req : Request ObjectKey Nat) : Processed c₀ h c → req.IsPlain →
    Processed c₀ h { c with queue := (Desk.step ⟨c.queue, []⟩ req).1.queue }
  /-- The workers, and all else that the queue has no part in, change. -/
  | others {h : List (ObjectKey × Except Fault Bool)} {c c' : Controller δ} (ready : Bool)
    (waiters : List (Waiter Nat)) (delays : List Number) : Processed c₀ h c →
    c'.queue = { c.queue with ready, waiters, delays } → Processed c₀ h c'

section

variable {δ : Type} {c₀ c : Controller δ} {h : List (ObjectKey × Except Fault Bool)}

/-- The failures that are counted for a key are its results in a row that had it tried again. -/
theorem Processed.requeues (hp : Processed c₀ h c) (k : ObjectKey) :
    c.queue.requeues k = inARow (c₀.queue.requeues k) (resultsOf k h) := by
  induction hp with
  | start => exact (inARow_nil _).symm
  | @ended h c now k' r _ ih =>
    -- The result is the last one of its own key, and none of any other.
    rw [requeues_conclude, resultsOf, List.filter_append, List.map_append]
    by_cases hk : k' = k
    · rw [if_pos hk, ih, ← inARow_snoc]
      simp [hk, resultsOf]
    · rw [if_neg hk, ih]
      simp [hk, resultsOf]
  | @requested h c req _ hplain ih =>
    rw [← ih]
    unfold WorkQueue.requeues
    rw [step_failures ⟨c.queue, []⟩ hplain]
  | others ready waiters delays _ hqueue ih =>
    rw [hqueue]
    exact ih

/-- The reconciles that have ended among what happened, with their keys and results. -/
def endings (ls : List Happening) : List (ObjectKey × Except Fault Bool) :=
  ls.filterMap fun
    | .ended _ k r => some (k, r)
    | _ => none

/-- The result decides what its conclusion does to the queue. -/
theorem Concludes.conclude_eq {now : Rat} {k : ObjectKey} {r : Except Fault Bool}
    {q : WorkQueue ObjectKey Nat} (hq : Concludes now k c.queue r q) :
    (c.conclude now k r).1 = { c with queue := q } := by
  -- The ways to conclude tell the kinds of results apart: by whether there is another try, and by the
  -- failures that are left.
  rcases cleared_or_retried_or_cancelled r with hr | hr | hr
  · rw [conclude_of_cleared c now k hr]
    cases hq with
    | forgets => rfl
    | leaves _ hn => exact absurd (hn 1) (by simp [failuresAfter_of_cleared hr])
    | retries hretried => exact absurd hretried hr.not_retried
  · rw [conclude_of_retried c now k hr]
    cases hq with
    | forgets hnot => exact absurd hr hnot
    | leaves hnot => exact absurd hr hnot
    | retries => rfl
  · obtain ⟨f, rfl, hf⟩ := hr.exists_fault
    rw [conclude_of_cancelled c now k hf]
    cases hq with
    | forgets _ hn => exact absurd (hn 1) (by simp [failuresAfter_of_cancelled hr])
    | leaves => rfl
    | retries hretried => exact absurd hretried hr.not_retried

/-- Whatever the operator does to a controller is such a run. -/
theorem Turn.processed {c' : Controller δ} {now : Rat} {ls : List Happening}
    (ht : Turn now c ls c') (hp : Processed c₀ h c) : Processed c₀ (h ++ endings ls) c' := by
  have quiet : ∀ {c'' : Controller δ}, endings ls = [] → Processed c₀ h c'' →
      Processed c₀ (h ++ endings ls) c'' := by
    intro c'' hls hp'
    rwa [hls, List.append_nil]
  cases ht with
  | asked k => exact quiet rfl (hp.requested (.add k) trivial)
  | missed => exact quiet rfl hp
  | fired t => exact quiet rfl (hp.requested (.fire t) trivial)
  | planned => exact quiet rfl (hp.others _ _ _ rfl)
  | paused => exact quiet rfl (hp.others _ _ _ rfl)
  | began j k rest waiters w _ _ hqueue =>
    -- The worker asks for a key when it has left its place among those that wait.
    have hleft : Processed c₀ h { c with queue := { c.queue with waiters } } := hp.others _ _ _ rfl
    have hgot := hleft.requested (.get j) trivial
    refine quiet rfl (hgot.others c.queue.ready waiters c.queue.delays ?_)
    simp [Desk.step, Desk.receive, WorkQueue.get, WorkQueue.take, hqueue]
  | slept => exact quiet rfl (hp.others _ _ _ rfl)
  | ended j k r q w _ hq =>
    have hended := hp.ended now k r
    rw [hq.conclude_eq] at hended
    have hcleared : Processed c₀ (h ++ [(k, r)]) { c with queue := { q with delays := [] } } :=
      hended.others _ _ _ rfl
    exact (hcleared.requested (.done j k) trivial).others _ _ _ rfl

/-- Turns process the keys of which a reconcile ends among them. -/
theorem Turns.processed {c' : Controller δ} {now : Rat} {ls : List Happening}
    (ht : Turns now c ls c') (hp : Processed c₀ h c) : Processed c₀ (h ++ endings ls) c' := by
  induction ht with
  | refl => simpa [endings] using hp
  | step _ ht ih => simpa [endings] using ht.processed ih

/-! ### One more result -/

/-- What the end of a reconcile of a key does at a controller, given the delay of a failure. -/
structure Accounts (c : Controller δ) (now : Rat) (k : ObjectKey) (delay : Rat)
    (r : Except Fault Bool) : Prop where
  /-- The failures of the key are cleared. Nothing else changes. -/
  cleared : Cleared r →
    c.conclude now k r = ({ c with queue := c.queue.forget k }, .ok ()) ∧
      (c.conclude now k r).1.queue.requeues k = 0
  /-- Of a key that is tried again one more failure is counted, and one timer is started. Nothing else
  changes. -/
  retried : Retried r →
    (∃ d : Number, d.toRat? = some delay ∧
      c.conclude now k r =
        ({ c with
          queue := { counted c.queue k with
            timers := c.queue.timers ++ [{ key := k, due := some (now + delay) }]
            delays := c.queue.delays ++ [d] } }, .ok ())) ∧
      (c.conclude now k r).1.queue.requeues k = c.queue.requeues k + 1
  /-- A cancellation is passed on. Nothing changes. -/
  cancelled : ∀ f, r = .error f → f.isCancellation = true → c.conclude now k r = (c, .error f)
  /-- Of other keys nothing changes. -/
  others : ∀ k', k ≠ k' → standing (c.conclude now k r).1.queue k' = standing c.queue k'

variable {base greatest : Rat}

/-- The end of a reconcile is accounted for, as long as the delays are finite and so few failures are
recorded that the delay can be computed. -/
theorem accounts (hpaced : Paced c.queue base greatest) (hrange : greatest < Double.limit) (now : Rat)
    {k : ObjectKey} (hfew : c.queue.requeues k < 1024) (r : Except Fault Bool) :
    Accounts c now k (backoffDelay base greatest (c.queue.requeues k)) r where
  cleared hr := by
    refine ⟨conclude_of_cleared c now k hr, ?_⟩
    rw [requeues_conclude, if_pos rfl, failuresAfter_of_cleared hr]
  retried hr := by
    -- No delay exceeds the greatest one, so each is within reach.
    have hreach : WithinReach c.queue.baseDelay (c.queue.requeues k)
        (backoffDelay base greatest (c.queue.requeues k)) :=
      ⟨.inr hfew, (backoffDelay_le base greatest _).trans_lt hrange⟩
    obtain ⟨d, hd, hoff⟩ := hpaced.putsOff now k hreach
    refine ⟨⟨d, hd, ?_⟩, ?_⟩
    · rw [conclude_of_retried c now k hr, hoff]
    · rw [requeues_conclude, if_pos rfl, failuresAfter_of_retried hr]
  cancelled f hf hc := hf ▸ conclude_of_cancelled c now k hc
  others k' hk := by
    obtain ⟨q, hq, he⟩ := conclude_eq c now k r
    rw [he]
    exact hq.standing_of_ne hpaced.isOpen hk

/-- Concluding a reconcile neither closes the queue nor changes the bounds of its delays. -/
theorem paced_conclude (hpaced : Paced c.queue base greatest) (now : Rat) (k : ObjectKey)
    (r : Except Fault Bool) : Paced (c.conclude now k r).1.queue base greatest := by
  obtain ⟨q, hq, he⟩ := conclude_eq c now k r
  rw [he]
  cases hq with
  | forgets => exact ⟨hpaced.isOpen, hpaced.base, hpaced.greatest⟩
  | leaves => exact hpaced
  | retries => exact (hpaced.addRateLimited now k).1

/-- Take the reconciles that have ended at a controller whose queue is open and has delays that are
doubles, and one more that ends. If it clears the failures of the key, none are counted any more; if it has
the key tried again, one more is counted and one timer is started for the key, given that less than 1024
failures were counted before; and a cancellation is passed on. Nothing else is raised, and nothing else
changes. So the failures that are counted for a key are always its results in a row that had it tried
again. -/
theorem counted_in_a_row (hp : Processed c₀ h c) (hpaced : Paced c.queue base greatest)
    (hrange : greatest < Double.limit) (now : Rat) (k : ObjectKey) (r : Except Fault Bool)
    (hfew : c.queue.requeues k < 1024) :
    Accounts c now k (backoffDelay base greatest (c.queue.requeues k)) r ∧
      (Cleared r ∨ Retried r ∨ Cancelled r) ∧
      (∀ k', c.queue.requeues k' = inARow (c₀.queue.requeues k') (resultsOf k' h)) ∧
      ∀ k', (c.conclude now k r).1.queue.requeues k' =
        inARow (c₀.queue.requeues k') (resultsOf k' (h ++ [(k, r)])) :=
  ⟨accounts hpaced hrange now hfew r, cleared_or_retried_or_cancelled r, hp.requeues,
    (hp.ended now k r).requeues⟩

end

/-- A controller of operator sources with the default settings. -/
def plainController : Controller Unit :=
  .ofConfig Kind.operatorSource (fun _ => pure true) none {}

/-- A key of an operator source. -/
def sourceKey (name : String) : ObjectKey :=
  ⟨.text Kind.operatorSource, .text "openshift-marketplace", .text name⟩

/-- The queue has the default delays. -/
theorem paced_plainController : Paced plainController.queue defaultBase 1000 :=
  ⟨rfl, paced_defaultQueue.base, paced_defaultQueue.greatest⟩

/-- A key fails, another one succeeds, and the key is cancelled. When it has to be tried again then, that
is the second failure in a row, and the delay is twice the base delay. -/
theorem counted_in_a_row_after_cancellation :
    ∃ c, Processed plainController [(sourceKey "a", .error (.transient "down")),
        (sourceKey "b", .ok false), (sourceKey "a", .error (.cancelled ""))] c ∧
      Accounts c 3 (sourceKey "a") (2 * defaultBase) (.ok true) ∧
      (c.conclude 3 (sourceKey "a") (.ok true)).1.queue.requeues (sourceKey "a") = 2 := by
  obtain ⟨c, hc⟩ : ∃ c, c = ((((plainController.conclude 0 (sourceKey "a")
      (.error (.transient "down"))).1.conclude 1 (sourceKey "b") (.ok false)).1.conclude 2
        (sourceKey "a") (.error (.cancelled "")))).1 := ⟨_, rfl⟩
  have hp : Processed plainController [(sourceKey "a", .error (.transient "down")),
      (sourceKey "b", .ok false), (sourceKey "a", .error (.cancelled ""))] c :=
    hc ▸ ((Processed.start.ended 0 _ _).ended 1 _ _).ended 2 _ _
  have hpaced : Paced c.queue defaultBase 1000 :=
    hc ▸ paced_conclude (paced_conclude (paced_conclude paced_plainController _ _ _) _ _ _) _ _ _
  have hone : c.queue.requeues (sourceKey "a") = 1 := by
    rw [hp.requeues]
    decide +kernel
  have htwice : backoffDelay defaultBase 1000 1 = 2 * defaultBase := by decide +kernel
  have hcounted := counted_in_a_row hp hpaced paced_plainController.greatest.lt_limit 3
    (sourceKey "a") (.ok true) (by rw [hone]; decide)
  rw [hone, htwice] at hcounted
  exact ⟨c, hp, hcounted.1, by rw [(hcounted.1.retried rfl).2, hone]⟩

end CatalogOperator.Proofs.Operation
