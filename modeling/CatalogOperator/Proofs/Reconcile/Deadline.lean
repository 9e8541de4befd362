import CatalogOperator.Proofs.Activity.Timing
import CatalogOperator.Proofs.Reconcile.WriteBack

/-!
# `CatalogOperator.Proofs.Reconcile.Deadline`: the deadline of a reconcile

A reconcile may have a deadline. A handler that is still at work when it passes is cancelled, and the
invocation fails with a fault of its own. A handler that ends in time decides for itself what comes of
the invocation. There is one exception: a handler may fail because some other call took too long, and
the dispatcher takes this for its own deadline, even if it has none.

* `PastDeadline`: some time is longer than a dispatcher gives a handler.
* `Relayed`: what comes of a handler that ends in time.
* `KeepsDeadline`: the fault of the deadline is there exactly if the handler is late.
* `toFinish_invoke`: an invocation ends as the handler does under the deadline. `invoke_of_late`,
  `invoke_of_inTime`: what this comes to.
* `keeps_deadline_iff`: the exception is the only one. `not_keeps_deadline_unlimited` is a case of it.
-/

set_option autoImplicit false

namespace CatalogOperator.Proofs.Reconcile

section

variable {σ R : Type} {d : Dispatcher σ R} {l : Rat}

/-- The seconds until a deadline are never negative. -/
theorem secondsUntil?_nonneg {x : Double} (h : Dispatcher.secondsUntil? x = some l) : 0 ≤ l := by
  unfold Dispatcher.secondsUntil? at h
  split at h
  · next hpos =>
    cases x with
    | zero s => cases hpos
    | finite q =>
      obtain rfl : q = l := Option.some.inj h
      exact Rat.le_of_lt (by simpa [Double.lt] using hpos)
    | infinite s => cases h
    | nan => cases h
  · cases h
    exact Rat.le_refl

/-- So the seconds that a reconcile has are not negative either. -/
theorem seconds?_nonneg (h : d.seconds? = some l) : 0 ≤ l := by
  obtain ⟨n, -, hn⟩ := Option.bind_eq_some_iff.mp h
  obtain ⟨x, -, hx⟩ := Option.bind_eq_some_iff.mp hn
  exact secondsUntil?_nonneg hx

/-- Whether some time is longer than a dispatcher gives a handler. -/
def PastDeadline (d : Dispatcher σ R) (time : Rat) : Prop :=
  ∃ l, d.seconds? = some l ∧ l < time

/-- Whether a handler ended by giving way to a cancellation. -/
def GivesWay (x : R × Except Fault Verdict) : Prop :=
  ∃ f, x.2 = .error f ∧ f.isCancellation = true

/-- What comes of a handler that ends in time: its verdict is passed on, the failure of a store call
becomes part of an outcome, and any other fault is passed on as it is. -/
inductive Relayed (out : R) : Except Fault Verdict → Except Fault (Outcome R) → Prop
  | verdict (v : Verdict) :
    Relayed out (.ok v) (.ok { resource := out, next := v.next, error := v.error })
  | storeFailure (f : Fault) (o : Outcome R) : f.isStoreFailure = true → o.error = some f →
    Relayed out (.error f) (.ok o)
  | fault (f : Fault) : f.isStoreFailure = false → Relayed out (.error f) (.error f)

/-- Whether a result is the fault of a deadline that has passed. -/
def Overdue {α : Type} (x : Except Fault α) : Prop :=
  ∃ resource limit, x = .error (.deadlinePassed resource limit)

/-- Whether an invocation fails over the deadline exactly if the handler is late, unless the handler
itself failed in this way, and otherwise ends as the handler has it. -/
structure KeepsDeadline (late : Prop) (handled : R × Except Fault Verdict)
    (invoked : Except Fault (Outcome R)) : Prop where
  overdue_iff : Overdue invoked ↔ late ∨ Overdue handled.2
  relayed : ¬ late → Relayed handled.1 handled.2 invoked

/-- A handler that ended in time is to blame if the deadline counts as passed nevertheless. -/
theorem Relayed.overdue_iff {out : R} {ended : Except Fault Verdict}
    {invoked : Except Fault (Outcome R)} (h : Relayed out ended invoked) :
    Overdue invoked ↔ Overdue ended := by
  cases h with
  | verdict v => simp [Overdue]
  | storeFailure f o hf =>
    refine iff_of_false (by simp [Overdue]) ?_
    rintro ⟨_, _, h⟩
    cases h
    cases hf
  | fault f => simp [Overdue]

end

section

variable {σ Spec Packages : Type} [ManagedKind Spec Packages]
  {d : Dispatcher σ (Managed Spec Packages)} {r out : Managed Spec Packages}
  {ended : Except Fault Verdict}

/-- The fault of a deadline that has passed, as a dispatcher has it. -/
def overdue (d : Dispatcher σ (Managed Spec Packages)) (r : Managed Spec Packages) : Fault :=
  .deadlinePassed r.key.text d.limitText

/-- A handler that gave way after the deadline has passed is late. -/
theorem conclude_of_givesWay (h : GivesWay (out, ended)) :
    d.conclude r out ended true = .error (overdue d r) := by
  obtain ⟨f, rfl, hf⟩ := h
  simp [Dispatcher.conclude, hf, overdue]

/-- A handler that failed because a call took too long counts as late, whatever the time. -/
theorem conclude_of_timeLimit {m : String} (h : ended = .error (.timeLimit m)) (expired : Bool) :
    d.conclude r out ended expired = .error (overdue d r) := by
  rw [h]
  rfl

/-- Any other handler that ended before the deadline has passed is not late. -/
theorem relayed_conclude (h : ∀ m, ended ≠ .error (.timeLimit m)) :
    Relayed out ended (d.conclude r out ended false) := by
  cases ended with
  | ok v => exact .verdict v
  | error f =>
    have hlimit : f.isTimeLimit = false := by
      cases f with
      | timeLimit m => exact absurd rfl (h m)
      | _ => rfl
    unfold Dispatcher.conclude
    simp only [hlimit, Bool.false_and, Bool.or_self, Bool.false_eq_true, if_false]
    split
    · next hstore =>
      split
      · exact .storeFailure f _ hstore rfl
      · exact .storeFailure f _ hstore rfl
    · next hstore => exact .fault f (by simpa using hstore)

/-- An invocation ends as the handler does under the deadline. -/
theorem toFinish_invoke {rec : Reconciler σ (Managed Spec Packages)}
    (h : r.phase.name = .text rec.phase) (hlimit : d.limitFault? = none) (trace : Trace) (s : σ)
    (others : Nat → σ → σ) :
    ((d.invoke trace rec r s).toFinish others).result =
      let x := (((handling rec trace r s).within d.seconds?).toFinish others).result
      d.conclude r x.1.1 x.1.2 x.2 := by
  rw [invoke_run h hlimit]
  exact congrArg (·.result) (Run.toFinish_map others _
    fun x : (Managed Spec Packages × Except Fault Verdict) × Bool =>
      d.conclude r x.1.1 x.1.2 x.2)

section

variable {rec : Reconciler σ (Managed Spec Packages)} {trace : Trace} {s : σ} {others : Nat → σ → σ}

/-- A handler that is late is cancelled, and the invocation fails over the deadline. -/
theorem invoke_of_late (hphase : r.phase.name = .text rec.phase) (hlimit : d.limitFault? = none)
    (hheeds : (handling rec trace r s).Heeds GivesWay)
    (h : PastDeadline d ((handling rec trace r s).toFinish others).time) :
    ((d.invoke trace rec r s).toFinish others).result = .error (overdue d r) := by
  obtain ⟨l, hl, hlt⟩ := h
  obtain ⟨hexpired, hgives⟩ := Run.toFinish_within_of_gt (seconds?_nonneg hl) hlt hheeds
  rw [toFinish_invoke hphase hlimit, hl]
  dsimp only
  rw [hexpired]
  exact conclude_of_givesWay hgives

/-- A handler that is not late ends as it does without a deadline. -/
theorem invoke_of_inTime (hphase : r.phase.name = .text rec.phase) (hlimit : d.limitFault? = none)
    (hnever : d.seconds? ≠ some ((handling rec trace r s).toFinish others).time)
    (h : ¬ PastDeadline d ((handling rec trace r s).toFinish others).time) :
    ((d.invoke trace rec r s).toFinish others).result =
      d.conclude r ((handling rec trace r s).toFinish others).result.1
        ((handling rec trace r s).toFinish others).result.2 false := by
  have hlt : ∀ l, d.seconds? = some l → ((handling rec trace r s).toFinish others).time < l := by
    intro l hl
    have hne : l ≠ ((handling rec trace r s).toFinish others).time := fun he => hnever (he ▸ hl)
    have hle : ¬ l < ((handling rec trace r s).toFinish others).time := fun hlt => h ⟨l, hl, hlt⟩
    grind
  rw [toFinish_invoke hphase hlimit, Run.toFinish_within_of_lt hlt]

end

/-- Invoke a reconciler on a resource in its phase, and let nobody cancel it from outside. The handler
may take any time other than exactly that of the deadline, and do anything; if it is cancelled it gives
way. Then, if the clock can count to the deadline, that is kept exactly if the handler is late or does
not fail because some call took too long. If it is late, the invocation fails over the deadline, and if
it fails in that way, it does so as well, whatever the time and even if there is no deadline. If the
clock cannot count to it, the handler is not called, and the invocation fails at once. -/
theorem keeps_deadline_iff (rec : Reconciler σ (Managed Spec Packages)) (trace : Trace) (s : σ)
    (others : Nat → σ → σ) (hphase : r.phase.name = .text rec.phase)
    (hheeds : (handling rec trace r s).Heeds GivesWay)
    (hnever : d.seconds? ≠ some ((handling rec trace r s).toFinish others).time) :
    let handled := (handling rec trace r s).toFinish others
    let invoked := (d.invoke trace rec r s).toFinish others
    (d.limitFault? = none →
      (KeepsDeadline (PastDeadline d handled.time) handled.result invoked.result ↔
        PastDeadline d handled.time ∨ ∀ m, handled.result.2 ≠ .error (.timeLimit m)) ∧
      (PastDeadline d handled.time → invoked.result = .error (overdue d r)) ∧
      ∀ m, handled.result.2 = .error (.timeLimit m) → invoked.result = .error (overdue d r)) ∧
    ∀ f, d.limitFault? = some f → d.invoke trace rec r s = .finished s (.error f) := by
  intro handled invoked
  refine ⟨fun hlimit => ?_, fun f hlimit => invoke_of_limitFault hphase hlimit trace s⟩
  have hlate : PastDeadline d handled.time → invoked.result = .error (overdue d r) :=
    invoke_of_late hphase hlimit hheeds
  have hintime : ¬ PastDeadline d handled.time →
      invoked.result = d.conclude r handled.result.1 handled.result.2 false :=
    invoke_of_inTime hphase hlimit hnever
  -- Whether the handler is late decides which of the two facts says how the invocation ends.
  refine ⟨⟨fun hkeeps => ?_, fun h => ?_⟩, hlate, fun m hm => ?_⟩
  · by_cases hpast : PastDeadline d handled.time
    · exact .inl hpast
    · refine .inr fun m hm => ?_
      have hrelayed := hkeeps.relayed hpast
      have hoverdue := hkeeps.overdue_iff.mp ⟨_, _, (hintime hpast).trans
        (conclude_of_timeLimit hm false)⟩
      rcases hoverdue with hpast' | ⟨_, _, h⟩
      · exact hpast hpast'
      · rw [hm] at h
        cases h
  · by_cases hpast : PastDeadline d handled.time
    · exact ⟨iff_of_true ⟨_, _, hlate hpast⟩ (.inl hpast), fun hnot => absurd hpast hnot⟩
    · have hrelayed : Relayed handled.result.1 handled.result.2 invoked.result :=
        hintime hpast ▸ relayed_conclude (h.resolve_left hpast)
      exact ⟨hrelayed.overdue_iff.trans (by simp [hpast]), fun _ => hrelayed⟩
  · by_cases hpast : PastDeadline d handled.time
    · exact hlate hpast
    · exact (hintime hpast).trans (conclude_of_timeLimit hm false)

end

/-! ### Handlers that take their time -/

/-- A reconciler that works for ten seconds before it asks for the next phase. -/
def plodding : Reconciler Unit CatalogSourceConfig where
  label := "Plodding"
  phase := Phase.configuring.text
  handle _ r := Activity.bind (Activity.sleep 10) fun w => Activity.pure <|
    match w with
    | .elapsed => (r, .ok .configured)
    | .cancelled => (r, .error (.cancelled ""))

/-- Five seconds are not enough for it. -/
theorem keeps_deadline_iff_plodding :
    ∃ d : Dispatcher Unit CatalogSourceConfig, d.limit = some (.int 5) ∧
      underway.phase.name = .text plodding.phase ∧
      (handling plodding [] underway ()).Heeds GivesWay ∧
      d.seconds? ≠ some ((handling plodding [] underway ()).toFinish fun _ => id).time ∧
      ((d.invoke [] plodding underway ()).toFinish fun _ => id).result =
        .error (.deadlinePassed "CatalogSourceConfig/openshift-marketplace/c" "5") := by
  let d : Dispatcher Unit CatalogSourceConfig := { table := Table.empty, limit := some (.int 5) }
  have hheeds : (handling plodding [] underway ()).Heeds GivesWay :=
    fun _ => ⟨⟨.cancelled "", rfl, rfl⟩, trivial⟩
  have hnever : d.seconds? ≠
      some ((handling plodding [] underway ()).toFinish fun _ => id).time := by decide +kernel
  have hlate : PastDeadline d ((handling plodding [] underway ()).toFinish fun _ => id).time :=
    ⟨5, by decide +kernel, by decide +kernel⟩
  have hlimit : d.limitFault? = none := if_neg (by decide +kernel)
  have hresult :=
    ((keeps_deadline_iff plodding [] () (fun _ => id) rfl hheeds hnever).1 hlimit).2.1 hlate
  exact ⟨d, rfl, rfl, hheeds, hnever, hresult.trans (congrArg Except.error (by decide +kernel))⟩

/-- A reconciler that fails at once because some call took too long. -/
def impatient : Reconciler Unit CatalogSourceConfig where
  label := "Impatient"
  phase := Phase.configuring.text
  handle _ r := Activity.pure (r, .error (.timeLimit "slow"))

/-- The deadline is not kept without one: the fault of the handler is not passed on. -/
theorem not_keeps_deadline_unlimited :
    ¬ ∀ (d : Dispatcher Unit CatalogSourceConfig) (rec : Reconciler Unit CatalogSourceConfig)
      (r : CatalogSourceConfig) (trace : Trace) (s : Unit) (others : Nat → Unit → Unit),
      (∀ n, d.limit = some n → n.isAtMostZero = false) → r.phase.name = .text rec.phase →
      (handling rec trace r s).Heeds GivesWay →
      d.seconds? ≠ some ((handling rec trace r s).toFinish others).time →
      KeepsDeadline (PastDeadline d ((handling rec trace r s).toFinish others).time)
        ((handling rec trace r s).toFinish others).result
        ((d.invoke trace rec r s).toFinish others).result := by
  intro h
  have hkeeps := h { table := Table.empty } impatient underway [] () (fun _ => id)
    (fun _ hn => nomatch hn) rfl trivial (by decide +kernel)
  have hrelayed := hkeeps.relayed fun ⟨_, hl, _⟩ => nomatch hl
  cases hrelayed

end CatalogOperator.Proofs.Reconcile
