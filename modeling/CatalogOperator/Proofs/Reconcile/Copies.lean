import CatalogOperator.Proofs.Activity.Invariants
import CatalogOperator.Proofs.Reconcile.Provision
import CatalogOperator.Proofs.Reconcile.Record

/-!
# `CatalogOperator.Proofs.Reconcile.Copies`: the last known good copies

The copy of a catalog source config is taken before an attempt to configure it does anything else, so
it is what the attempt has read, whatever the deployer makes of the resource and however the attempt
ends. It stands until the next attempt begins or the resource is found to be gone. Reconciles may sleep
and be overtaken by others in between, those of the same resource included.

* `Finding`: what a reconcile finds that matters to the copies. `copyOf`: the copy of a resource, from
  the findings alone.
* `KeepsCopies`: what is done in all other stretches of a reconcile.
* `Hands`: a reconcile that calls the deployer, and in which state it does so.
* `exists_entered`: a finding is entered before anything else is done. `hands_attempt`: that is before
  the deployer is called.
* `Crew`: the reconciles that are under way. `AtWork`: how they take turns.
* `copied`: the copies are those from the findings at every moment.
-/

set_option autoImplicit false

namespace CatalogOperator.Proofs.Reconcile

section

variable {δ : Type}

/-! ### Findings -/

/-- What a reconcile finds under its key that matters to the copies: a catalog source config that is
being configured, or no object. -/
inductive Finding where
  | attempt (r : CatalogSourceConfig)
  | gone
  deriving DecidableEq

/-- The copy that is there after a finding. -/
def Finding.copy? : Finding → Option CatalogSourceConfig
  | attempt r => some r
  | gone => none

/-- What a reconcile of a key finds in a state. Nothing comes of a catalog source config in another
phase, of an object of another kind, or of a read that fails. -/
def finding? (K : ObjectKey) (s : Shared δ) : Option Finding :=
  match (s.cluster.store.get K (.only Kind.catalogSourceConfig)).2 with
  | .ok none => some .gone
  | .ok (some (.catalogSourceConfig r)) =>
    if r.phase.isIn .configuring then some (.attempt r) else none
  | _ => none

/-- The copy of a resource, going by the latest of the findings on its key. The findings have the
latest one first. -/
def copyOf (findings : List (ObjectKey × Finding)) (k : ObjectKey) : Option CatalogSourceConfig :=
  (findings.find? fun e => e.1 = k).bind fun e => e.2.copy?

/-- The copies after a reconcile of a key has entered what it has found. -/
def entered (K : ObjectKey) (copies : LastKnownGood) : Option Finding → LastKnownGood
  | some (.attempt r) => copies.insert K r
  | some .gone => copies.erase K
  | none => copies

/-- The findings after a reconcile of a key. -/
def noted (K : ObjectKey) (findings : List (ObjectKey × Finding)) :
    Option Finding → List (ObjectKey × Finding)
  | some f => (K, f) :: findings
  | none => findings

/-- The latest finding on a key decides about its copy. -/
theorem copyOf_cons (K : ObjectKey) (f : Finding) (findings : List (ObjectKey × Finding))
    (k : ObjectKey) :
    copyOf ((K, f) :: findings) k = if K = k then f.copy? else copyOf findings k := by
  unfold copyOf
  rw [List.find?_cons]
  by_cases h : K = k <;> simp [h]

/-- What is entered is what is noted. -/
theorem find?_entered {copies : LastKnownGood} {findings : List (ObjectKey × Finding)}
    (h : ∀ k, copies.find? k = copyOf findings k) (K : ObjectKey) (f? : Option Finding)
    (k : ObjectKey) : (entered K copies f?).find? k = copyOf (noted K findings f?) k := by
  cases f? with
  | none => exact h k
  | some f =>
    rw [noted, copyOf_cons, ← h k]
    cases f with
    | attempt r => exact Table.find?_insert copies K k r
    | gone => exact Table.find?_erase copies K k

variable {K : ObjectKey} {s t : Shared δ} {r : CatalogSourceConfig} {D : Deployer δ}
  {limit : Option Deadline}

/-- The state after the read of a key. -/
def afterRead (K : ObjectKey) (s : Shared δ) : Shared δ :=
  { s with cluster := { s.cluster with
    store := (s.cluster.store.get K (.only Kind.catalogSourceConfig)).1 } }

/-- A reconcile fails to read its key, or finds no object there and drops the copy, or dispatches the
catalog source config that it finds. -/
theorem finding_cases (K : ObjectKey) (s : Shared δ) :
    (finding? K s = none ∧
        ∃ f, ∀ d : Dispatcher (Shared δ) CatalogSourceConfig,
          (reconcile d Controller.forgetCopy K).run s = .finished (afterRead K s) (.error f)) ∨
      (finding? K s = some .gone ∧ objectAt K s = none ∧
        ∀ d : Dispatcher (Shared δ) CatalogSourceConfig,
          (reconcile d Controller.forgetCopy K).run s =
            .finished { afterRead K s with lastKnownGood := s.lastKnownGood.erase K } (.ok false)) ∨
      ∃ r : CatalogSourceConfig, objectAt K s = some r.toManifest ∧
        finding? K s = (if r.phase.isIn .configuring then some (.attempt r) else none) ∧
        ∀ d : Dispatcher (Shared δ) CatalogSourceConfig,
          (reconcile d Controller.forgetCopy K).run s =
            (d.dispatch [] r (afterRead K s)).bind (finish r) := by
  unfold finding?
  cases hget : (s.cluster.store.get K (.only Kind.catalogSourceConfig)).2 with
  | error f =>
    have hread : Call.runOn (Cluster.get K (.only (ManagedKind.kind CatalogSpec))) s.cluster =
        ((afterRead K s).cluster, .error f) := Prod.ext rfl hget
    refine .inl ⟨rfl, f, fun d => ?_⟩
    rw [reconcile_run, hread]
    rfl
  | ok m? =>
    have hread : Call.runOn (Cluster.get K (.only (ManagedKind.kind CatalogSpec))) s.cluster =
        ((afterRead K s).cluster, .ok m?) := Prod.ext rfl hget
    have hat : objectAt K s = m? := Cluster.get_eq_ok hread
    cases m? with
    | none =>
      refine .inr (.inl ⟨rfl, hat, fun d => ?_⟩)
      rw [reconcile_run, hread]
      rfl
    | some m =>
      -- What is read is of the kind that was asked for.
      obtain ⟨r, rfl⟩ : ∃ r : CatalogSourceConfig, m = r.toManifest :=
        ManagedContent.exists_of_typeName m (beq_iff_eq.mp (Store.admits_of_get hget))
      refine .inr (.inr ⟨r, hat, rfl, fun d => ?_⟩)
      rw [reconcile_run, hread]
      rfl

/-! ### Entering what was found -/

/-- What a reconcile does while it neither takes a copy nor drops one: it leaves the copies alone and
works on the cluster through the store. -/
structure KeepsCopies (s s' : Shared δ) : Prop where
  copies : s'.lastKnownGood = s.lastKnownGood
  recorded : Recorded s s'

/-- What keeps the copies may be done one after the other. -/
theorem sequential_keepsCopies : Sequential (KeepsCopies : Shared δ → Shared δ → Prop) where
  refl s := ⟨rfl, sequential_recorded.refl s⟩
  trans h h' := ⟨h'.copies.trans h.copies, sequential_recorded.trans h.recorded h'.recorded⟩

/-- What keeps the copies keeps every object under its own key. -/
theorem KeepsCopies.filed (h : KeepsCopies s t) (hs : s.cluster.store.Filed) :
    t.cluster.store.Filed := by
  obtain ⟨ns, htrail⟩ := h.recorded
  exact htrail.filed hs

/-- The copies are none of the cluster, so no deployer gets at them. -/
theorem allows_keepsCopies (hD : WorksThroughStore D) : Allows D KeepsCopies where
  toSequential := sequential_keepsCopies
  aside s cluster h := ⟨rfl, (allows_recorded hD).aside s cluster h⟩
  update s m := ⟨rfl, (allows_recorded hD).update s m⟩
  ensure trace r := obeys_onCluster (Q := fun c c' => ∃ ns, Trail c ns c')
    (fun _ _ h => ⟨rfl, h⟩) (hD.ensure trace r)
  populate r := obeys_onCluster (Q := fun c c' => ∃ ns, Trail c ns c') (fun _ _ h => ⟨rfl, h⟩)
    (.step (hD.populate r))

/-- Where the deployer is called from. -/
def attemptTrace (r : CatalogSourceConfig) : Trace :=
  Trace.enter [] ("ConfiguringReconciler " ++ r.key.text)

/-- How an attempt comes out. -/
def attemptOutcome (limit : Option Deadline) (D : Deployer δ) (r : CatalogSourceConfig)
    (x : (CatalogSourceConfig × Except Fault Verdict) × Bool) :
    Activity (Shared δ) (Except Fault (Outcome CatalogSourceConfig)) :=
  .pure ((Catalog.dispatcher D limit).conclude r x.1.1 x.1.2 x.2)

/-- The dispatch of a catalog source config that is being configured takes the copy and then calls the
deployer. -/
theorem dispatch_attempt (D : Deployer δ) (limit : Option Deadline)
    (hp : r.phase.name = .text Phase.configuring.text) (s : Shared δ) :
    (Catalog.dispatcher D limit).dispatch [] r s =
      (((Shared.onCluster (D.ensure (attemptTrace r) r)
        { s with lastKnownGood := s.lastKnownGood.insert r.key r }).bind (answering D)).within
          (Catalog.dispatcher D limit).seconds?).bind (attemptOutcome limit D r) := by
  rw [dispatch_of_phase (Catalog.configuring D) rfl (limitFault?_eq_none rfl) hp]
  simp only [Catalog.configuring, catalog_configure_eq]
  rfl

/-- Whether a reconcile of a key hands a resource to the deployer in a state and never again: what it
does from then on does not depend on how the deployer ensures the registry resources. -/
def Hands (D : Deployer δ) (limit : Option Deadline) (K : ObjectKey) (s : Shared δ)
    (r : CatalogSourceConfig) (t : Shared δ) : Prop :=
  ∃ (trace : Trace) (left : Option Rat)
    (f : CatalogSourceConfig × Except Fault Unit →
      Activity (Shared δ) (CatalogSourceConfig × Except Fault Verdict))
    (g : (CatalogSourceConfig × Except Fault Verdict) × Bool →
      Activity (Shared δ) (Except Fault Bool)),
    ∀ ensure, (reconcile (Catalog.dispatcher { D with ensure } limit) Controller.forgetCopy K).run s =
      (((Shared.onCluster (ensure trace r) t).bind f).within left).bind g

/-- The state in which an attempt hands the resource to the deployer. -/
def atDeployer (K : ObjectKey) (s : Shared δ) (r : CatalogSourceConfig) : Shared δ :=
  { afterRead K s with lastKnownGood := s.lastKnownGood.insert r.key r }

/-- A reconcile that finds a catalog source config that is being configured dispatches it. -/
theorem reconcile_of_attempt (h : finding? K s = some (.attempt r)) :
    objectAt K s = some r.toManifest ∧ r.phase.name = .text Phase.configuring.text ∧
      ∀ d : Dispatcher (Shared δ) CatalogSourceConfig,
        (reconcile d Controller.forgetCopy K).run s =
          (d.dispatch [] r (afterRead K s)).bind (finish r) := by
  rcases finding_cases K s with ⟨hnone, -⟩ | ⟨hgone, -⟩ | ⟨r', hat, hfound, hrun⟩
  · rw [hnone] at h
    cases h
  · rw [hgone] at h
    cases h
  · rw [hfound] at h
    split at h
    · next hphase =>
      cases h
      exact ⟨hat, beq_iff_eq.mp hphase, hrun⟩
    · cases h

/-- A reconcile that finds no object drops the copy and is over. -/
theorem reconcile_of_gone (h : finding? K s = some .gone) :
    objectAt K s = none ∧ ∀ d : Dispatcher (Shared δ) CatalogSourceConfig,
      (reconcile d Controller.forgetCopy K).run s =
        .finished { afterRead K s with lastKnownGood := s.lastKnownGood.erase K } (.ok false) := by
  rcases finding_cases K s with ⟨hnone, -⟩ | ⟨-, hat, hrun⟩ | ⟨r, -, hfound, -⟩
  · rw [hnone] at h
    cases h
  · exact ⟨hat, hrun⟩
  · rw [hfound] at h
    split at h <;> cases h

/-- The copy is taken before the deployer is called. -/
theorem hands_attempt (D : Deployer δ) (limit : Option Deadline)
    (h : finding? K s = some (.attempt r)) : Hands D limit K s r (atDeployer K s r) := by
  obtain ⟨-, hp, hrun⟩ := reconcile_of_attempt h
  -- Neither the dispatcher nor the answer that the handler makes of it goes back to how the deployer
  -- ensures, so the call is all that depends on it.
  refine ⟨attemptTrace r, (Catalog.dispatcher D limit).seconds?, answering D,
    fun x => (attemptOutcome limit D r x).bind (finish r), fun ensure => ?_⟩
  rw [hrun, dispatch_attempt _ _ hp, Run.bind_assoc]
  rfl

/-- In other phases the deployer is not called, and nothing is done to the copies. -/
theorem obeys_dispatch_other (hD : WorksThroughStore D) (limit : Option Deadline)
    (hp : r.phase.isIn .configuring = false) (trace : Trace) :
    ((Catalog.dispatcher D limit).dispatch trace r).Obeys KeepsCopies := by
  have hallows := allows_keepsCopies hD
  refine obeys_dispatch_of_handler hallows.toSequential (fun name rec hrec hphase trace => ?_) trace
  rcases catalog_reconciler_cases hrec with rfl | rfl | rfl | rfl
  · exact .pure hallows.toSequential _
  · -- The handler that calls the deployer is the one of the phase that is excluded.
    rw [PhaseRecord.isIn, hphase] at hp
    exact absurd hp (by simp [Catalog.configuring])
  · exact obeys_catalog_check hallows trace r
  · exact .pure hallows.toSequential _

/-- A read keeps the copies. -/
theorem keepsCopies_afterRead (K : ObjectKey) (s : Shared δ) : KeepsCopies s (afterRead K s) :=
  ⟨rfl, [], (Cluster.looks_get K (.only Kind.catalogSourceConfig) s.cluster).trail⟩

/-- A reconcile enters what it has found before it does anything else, and leaves the copies alone from
then on. -/
theorem exists_entered (hD : WorksThroughStore D) (limit : Option Deadline)
    (hs : s.cluster.store.Filed) (K : ObjectKey) :
    ∃ t, t.lastKnownGood = entered K s.lastKnownGood (finding? K s) ∧ Recorded s t ∧
      ((reconcile (Catalog.dispatcher D limit) Controller.forgetCopy K).run s).Obeys
        KeepsCopies t := by
  have hread := (keepsCopies_afterRead K s).recorded
  have hallows := allows_keepsCopies hD
  have hseq := hallows.toSequential
  rcases finding_cases K s with ⟨hfound, f, hrun⟩ | ⟨hfound, -, hrun⟩ | ⟨r, hat, hfound, hrun⟩
  · rw [hfound, hrun]
    exact ⟨afterRead K s, rfl, hread, hseq.refl _⟩
  · rw [hfound, hrun]
    let dropped : Shared δ := { afterRead K s with lastKnownGood := s.lastKnownGood.erase K }
    exact ⟨dropped, rfl, hread, hseq.refl dropped⟩
  · rw [hfound, hrun]
    cases hp : r.phase.isIn .configuring with
    | false =>
      have hdispatch := obeys_dispatch_other hD limit hp [] (afterRead K s)
      exact ⟨afterRead K s, rfl, hread, hdispatch.bind hseq (obeys_finish hallows r)⟩
    | true =>
      -- The object stands under its own key, so the copy is that of the key.
      have hkey : K = r.key := keyOf_eq_ok (hs K _ hat)
      subst hkey
      rw [dispatch_attempt D limit (beq_iff_eq.mp hp)]
      refine ⟨atDeployer r.key s r, rfl, hread, ?_⟩
      have hanswer := (hallows.ensure (attemptTrace r) r (atDeployer r.key s r)).bind hseq
        fun x t => obeys_answering hallows x t
      have hdispatch := (hanswer.within hseq (Catalog.dispatcher D limit).seconds?).bind hseq
        fun x => Activity.Obeys.pure hseq
          ((Catalog.dispatcher D limit).conclude r x.1.1 x.1.2 x.2)
      exact hdispatch.bind hseq (obeys_finish hallows r)

/-! ### Calling the deployer -/

/-- In phases other than that, it makes no difference how a deployer ensures the registry resources. -/
theorem dispatch_other (D : Deployer δ) (limit : Option Deadline)
    (hp : r.phase.isIn .configuring = false)
    (ensure : Trace → CatalogSourceConfig →
      Activity (Cluster δ) (CatalogSourceConfig × Except Fault Unit)) (s : Shared δ) :
    (Catalog.dispatcher { D with ensure } limit).dispatch [] r s =
      (Catalog.dispatcher D limit).dispatch [] r s := by
  -- Only the entry of that one phase has the deployer in it.
  have htable : ∀ p, p ≠ Phase.configuring.text →
      (Catalog.dispatcher { D with ensure } limit).table.find? p =
        (Catalog.dispatcher D limit).table.find? p := by
    intro p hne
    simp [Catalog.dispatcher, Table.ofList, Table.find?_insert, Catalog.configuring, hne.symm]
  have hrec : (Catalog.dispatcher { D with ensure } limit).reconcilerFor r =
      (Catalog.dispatcher D limit).reconcilerFor r := by
    unfold Dispatcher.reconcilerFor
    split
    · next p hname =>
      have hne : p ≠ Phase.configuring.text := by
        rintro rfl
        simp [PhaseRecord.isIn, hname] at hp
      rw [htable p hne]
    · rfl
  unfold Dispatcher.dispatch
  rw [hrec]
  rfl

/-- A reconcile calls the deployer only if it finds a catalog source config that is being
configured. -/
theorem reconcile_other (D : Deployer δ) (limit : Option Deadline)
    (h : ∀ r, finding? K s ≠ some (.attempt r))
    (ensure : Trace → CatalogSourceConfig →
      Activity (Cluster δ) (CatalogSourceConfig × Except Fault Unit)) :
    (reconcile (Catalog.dispatcher { D with ensure } limit) Controller.forgetCopy K).run s =
      (reconcile (Catalog.dispatcher D limit) Controller.forgetCopy K).run s := by
  rcases finding_cases K s with ⟨-, f, hrun⟩ | ⟨-, -, hrun⟩ | ⟨r, -, hfound, hrun⟩
  · rw [hrun, hrun]
  · rw [hrun, hrun]
  · cases hp : r.phase.isIn .configuring with
    | true =>
      -- That would be an attempt.
      rw [hp] at hfound
      exact absurd hfound (h r)
    | false => rw [hrun, hrun, dispatch_other D limit hp]

/-! ### Reconciles in turn -/

/-- The reconciles of catalog source configs that are under way: what they share, what is left of those
that are asleep, by their numbers, and what all of them have found, the latest finding first. -/
structure Crew (δ : Type) where
  shared : Shared δ
  asleep : Nat → Option (Wake → Shared δ → Run (Shared δ) (Except Fault Bool)) := fun _ => none
  findings : List (ObjectKey × Finding) := []

namespace Crew

/-- After the reconcile with a number has gone on until it fell asleep or ended. -/
def after (c : Crew δ) (number : Nat) (run : Run (Shared δ) (Except Fault Bool)) : Crew δ :=
  { c with shared := run.state, asleep := Function.update c.asleep number run.rest? }

/-- A reconcile of a key begins. -/
def begin (c : Crew δ) (D : Deployer δ) (limit : Option Deadline) (number : Nat) (K : ObjectKey) :
    Crew δ :=
  { c.after number
      ((reconcile (Catalog.dispatcher D limit) Controller.forgetCopy K).run c.shared) with
    findings := noted K c.findings (finding? K c.shared) }

/-- The reconcile with a number is resumed, if it is asleep. -/
def wake (c : Crew δ) (number : Nat) (w : Wake) : Crew δ :=
  match c.asleep number with
  | none => c
  | some resume => c.after number (resume w c.shared)

end Crew

/-- The states met while catalog source configs are reconciled, any number of reconciles at a time,
several of one key included, from a state on in which there are no copies. Others may do anything in
between, but take no copies and drop none, and store objects under their own keys only. -/
inductive AtWork (D : Deployer δ) (limit : Option Deadline) : Crew δ → Prop
  | start {s : Shared δ} : s.lastKnownGood = Table.empty → s.cluster.store.Filed →
    AtWork D limit { shared := s }
  | begins {c : Crew δ} {number : Nat} (K : ObjectKey) : AtWork D limit c →
    c.asleep number = none → AtWork D limit (c.begin D limit number K)
  | woken {c : Crew δ} (number : Nat) (w : Wake) : AtWork D limit c → AtWork D limit (c.wake number w)
  | others {c : Crew δ} {s : Shared δ} : AtWork D limit c →
    s.lastKnownGood = c.shared.lastKnownGood → s.cluster.store.Filed →
    AtWork D limit { c with shared := s }

/-- Whether the copies are those from the findings, and stay so whichever of the sleeping reconciles
goes on. -/
structure Faithful (c : Crew δ) : Prop where
  copies : ∀ k, c.shared.lastKnownGood.find? k = copyOf c.findings k
  filed : c.shared.cluster.store.Filed
  asleep : ∀ number resume, c.asleep number = some resume → ∀ w s, (resume w s).Obeys KeepsCopies s

variable {c : Crew δ}

/-- One stretch of a reconcile keeps this up, from the state on in which it has entered what it has
found. -/
theorem Faithful.after (hc : Faithful c) (number : Nat) {run : Run (Shared δ) (Except Fault Bool)}
    {findings : List (ObjectKey × Finding)} (h : run.Obeys KeepsCopies t)
    (hcopies : ∀ k, t.lastKnownGood.find? k = copyOf findings k) (hfiled : t.cluster.store.Filed) :
    Faithful { c.after number run with findings } where
  copies k := by
    rw [← hcopies k]
    exact congrArg (Table.find? · k) h.state.copies
  filed := h.state.filed hfiled
  asleep := Run.forall_update_rest? hc.asleep number fun _ hrest w s => h.of_rest? hrest w s

/-- So does every turn. -/
theorem AtWork.faithful (hD : WorksThroughStore D) (h : AtWork D limit c) : Faithful c := by
  -- A sleeping reconcile may be resumed on whatever the others have made of the state, so what is kept
  -- up is that it leaves the copies alone from there on.
  induction h with
  | @start s hcopies hfiled =>
    -- There are neither copies nor findings.
    refine ⟨fun k => ?_, hfiled, fun number resume h => nomatch h⟩
    show s.lastKnownGood.find? k = none
    rw [hcopies, Table.find?_empty]
  | @begins c number K _ _ ih =>
    obtain ⟨t, hentered, hrecorded, hobeys⟩ := exists_entered hD limit ih.filed K
    have hcopies : ∀ k, t.lastKnownGood.find? k =
        copyOf (noted K c.findings (finding? K c.shared)) k := by
      intro k
      rw [hentered]
      exact find?_entered ih.copies K _ k
    obtain ⟨ns, htrail⟩ := hrecorded
    exact ih.after number hobeys hcopies (htrail.filed ih.filed)
  | @woken c number w _ ih =>
    unfold Crew.wake
    split
    · exact ih
    · next resume hresume =>
      exact ih.after number (ih.asleep number resume hresume w _) ih.copies ih.filed
  | others _ hcopies hfiled ih => exact ⟨fun k => hcopies ▸ ih.copies k, hfiled, ih.asleep⟩

/-- However reconciles of catalog source configs take turns, whatever the deployer does, and wherever
they are ended, the copies are those from the findings at every moment: the copy of a resource is what
the latest attempt to configure it has read, and there is none if there was no attempt or the resource
has been found to be gone since. They are so already when the attempt calls the deployer, which it does
once, with what it has read. A reconcile that finds anything else does not call it. -/
theorem copied (hD : WorksThroughStore D) (h : AtWork D limit c) :
    (∀ k, c.shared.lastKnownGood.find? k = copyOf c.findings k) ∧
    (∀ K r, finding? K c.shared = some (.attempt r) →
      objectAt K c.shared = some r.toManifest ∧ r.phase.isIn .configuring = true ∧
        ∃ t, Hands D limit K c.shared r t ∧
          ∀ k, t.lastKnownGood.find? k = copyOf ((K, .attempt r) :: c.findings) k) ∧
    (∀ K, (∀ r, finding? K c.shared ≠ some (.attempt r)) → ∀ ensure,
      (reconcile (Catalog.dispatcher { D with ensure } limit) Controller.forgetCopy K).run c.shared =
        (reconcile (Catalog.dispatcher D limit) Controller.forgetCopy K).run c.shared) ∧
    ∀ K, finding? K c.shared = some .gone → objectAt K c.shared = none ∧
      ∃ t, (reconcile (Catalog.dispatcher D limit) Controller.forgetCopy K).run c.shared =
          .finished t (.ok false) ∧
        ∀ k, t.lastKnownGood.find? k = copyOf ((K, .gone) :: c.findings) k := by
  have hc := h.faithful hD
  refine ⟨hc.copies, fun K r hfound => ?_, fun K hother => reconcile_other D limit hother,
    fun K hfound => ?_⟩
  · obtain ⟨hat, hp, -⟩ := reconcile_of_attempt hfound
    -- The copy goes under the key that the resource states, which is the one it was read by.
    have hkey : K = r.key := keyOf_eq_ok (hc.filed K _ hat)
    refine ⟨hat, beq_iff_eq.mpr hp, _, hands_attempt D limit hfound, fun k => ?_⟩
    rw [hkey]
    exact find?_entered hc.copies r.key (some (.attempt r)) k
  · obtain ⟨hat, hrun⟩ := reconcile_of_gone hfound
    exact ⟨hat, _, hrun _, find?_entered hc.copies K (some .gone)⟩

end

/-! ### A deployer that meddles -/

/-- A deployer that changes the resource it is given, takes its time and then fails. -/
def meddling : Deployer Unit where
  ensure _ r s := .asleep s 5 fun w s' => .finished s'
    ({ r with spec := { r.spec with packages := .text "" } },
      .error (match w with
        | .elapsed => .transient "no route"
        | .cancelled => .cancelled ""))
  populate r c := (c, r, .ok ())

/-- The meddling deployer leaves the store alone. -/
theorem worksThroughStore_meddling : WorksThroughStore meddling where
  ensure _ _ c := ⟨⟨[], .refl c⟩, fun _ c' => ⟨[], .refl c'⟩⟩
  populate _ c := ⟨[], .refl c⟩

/-- A catalog source config that is being configured. -/
def unconfigured (name : String) : CatalogSourceConfig where
  name := .text name
  ns := .text "n"
  spec := { targetNamespace := .text "t", packages := .text "p" }
  phase := { name := .text Phase.configuring.text }
  packages := []

/-- Two of them, none of which has been attempted. -/
def storeroom : Shared Unit where
  cluster := {
    store := {
      objects := Table.ofList [((unconfigured "a").key, (unconfigured "a").toManifest),
        ((unconfigured "b").key, (unconfigured "b").toManifest)] }
    surroundings := () }

/-- Both are attempted at the same time, and the first attempt fails. -/
def meddled : Crew Unit :=
  ((Crew.begin { shared := storeroom } meddling none 0 (unconfigured "a").key).begin meddling none 1
    (unconfigured "b").key).wake 0 .elapsed

/-- Both objects stand under their own keys. -/
theorem filed_storeroom : storeroom.cluster.store.Filed := by
  intro key m hm
  have hmem : (key, m) ∈ [((unconfigured "a").key, (unconfigured "a").toManifest),
    ((unconfigured "b").key, (unconfigured "b").toManifest)] := Table.mem_entries_iff.mpr hm
  simp only [List.mem_cons, Prod.mk.injEq, List.not_mem_nil, or_false] at hmem
  rcases hmem with ⟨rfl, rfl⟩ | ⟨rfl, rfl⟩
  · rfl
  · rfl

/-- The two attempts are what a crew may do. -/
theorem atWork_meddled : AtWork meddling none meddled := by
  have hfirst : AtWork meddling none
      (Crew.begin { shared := storeroom } meddling none 0 (unconfigured "a").key) :=
    .begins _ (.start rfl filed_storeroom) rfl
  exact .woken _ _ (.begins _ hfirst rfl)

/-- What is stored of the first one has been changed, its copy has not. The second one may be attempted
once more, and finding a third one to be gone does nothing to the copies of the two. -/
theorem copied_meddled :
    objectAt (unconfigured "a").key meddled.shared ≠ some (unconfigured "a").toManifest ∧
      meddled.shared.lastKnownGood.find? (unconfigured "a").key = some (unconfigured "a") ∧
      (∃ t, Hands meddling none (unconfigured "b").key meddled.shared (unconfigured "b") t ∧
        t.lastKnownGood.find? (unconfigured "b").key = some (unconfigured "b")) ∧
      ∃ t, (reconcile (Catalog.dispatcher meddling none) Controller.forgetCopy
          (unconfigured "c").key).run meddled.shared = .finished t (.ok false) ∧
        t.lastKnownGood.find? (unconfigured "a").key = some (unconfigured "a") := by
  obtain ⟨hcopies, hattempt, -, hgone⟩ := copied worksThroughStore_meddling atWork_meddled
  obtain ⟨-, -, t, hhands, ht⟩ := hattempt (unconfigured "b").key (unconfigured "b")
    (by decide +kernel)
  obtain ⟨-, u, hrun, hu⟩ := hgone (unconfigured "c").key (by decide +kernel)
  exact ⟨by decide +kernel, (hcopies _).trans (by decide +kernel),
    ⟨t, hhands, (ht _).trans (by decide +kernel)⟩, u, hrun, (hu _).trans (by decide +kernel)⟩

end CatalogOperator.Proofs.Reconcile
