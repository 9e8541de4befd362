import CatalogOperator.Operator.Controller
import CatalogOperator.Proofs.Activity.Stretches
import CatalogOperator.Proofs.Reconcile.Call
import CatalogOperator.Proofs.Store.Changes

/-!
# `CatalogOperator.Proofs.Reconcile.Handlers`: what a reconcile does, part by part

A reconcile looks at the cluster, lets the deployer work on it, and writes the resource back. Besides,
it keeps books on the resource: on the packages and the failures of an operator source, and on how a
catalog source config was before an attempt. A relation between shared states that allows for each of
these parts is obeyed by the whole.

* `Allows`: a relation that allows for whatever is done to the cluster. `Books`: one that allows for
  the bookkeeping on a resource.
* `deploying`: configuring an operator source once its packages are known. `answering`: configuring a
  catalog source config once the deployer has returned.
* `obeys_dispatch`, `obeys_finish`, `obeys_reconcile`: the parts account for the whole.
-/

set_option autoImplicit false

namespace CatalogOperator.Proofs.Reconcile

section

variable {δ : Type}

/-- A relation that allows for whatever a reconcile and its deployer do to the cluster. -/
structure Allows (D : Deployer δ) (R : Shared δ → Shared δ → Prop) : Prop extends Sequential R where
  aside : ∀ s cluster, Aside s.cluster cluster → R s { s with cluster }
  update : ∀ s m, R s { s with cluster := (Call.runOn (Cluster.update m) s.cluster).1 }
  ensure : ∀ trace r, (Shared.onCluster (D.ensure trace r)).Obeys R
  populate : ∀ r, (Shared.populate D r).Obeys R

/-- The note that is taken of a catalog source config before an attempt. -/
def remember (r : CatalogSourceConfig) : Activity (Shared δ) Unit :=
  Shared.modify fun s => { s with lastKnownGood := s.lastKnownGood.insert r.key r }

/-- A relation that allows for the bookkeeping on the resource under a key. -/
structure Books (R : Shared δ → Shared δ → Prop) (K : ObjectKey) : Prop where
  record : ∀ r : OperatorSource, r.key = K → (Source.recordPackages r).Obeys R
  track : ∀ (r : OperatorSource) f, r.key = K → (Source.track r f).Obeys R
  untrack : ∀ r : OperatorSource, r.key = K → (Source.untrack r).Obeys R
  remember : ∀ r : CatalogSourceConfig, r.key = K → (remember r).Obeys R

variable {R : Shared δ → Shared δ → Prop} {D : Deployer δ}

/-- What is done to the cluster obeys a relation on the shared state that accounts for it. -/
theorem obeys_onCluster {α : Type} {Q : Cluster δ → Cluster δ → Prop}
    (lift : ∀ (s : Shared δ) cluster, Q s.cluster cluster → R s { s with cluster })
    {p : Activity (Cluster δ) α} (h : p.Obeys Q) : (Shared.onCluster p).Obeys R :=
  .zoom lift h

/-- A relation allows for the calls that only look. -/
theorem Allows.look (hR : Allows D R) {α : Type} {c : Call (Cluster δ) α} (h : c.Looks) :
    (Shared.callCluster c).Obeys R :=
  fun s => hR.aside s _ (h s.cluster)

/-! ### The handlers -/

/-- Configuring an operator source once its packages are known. -/
def deploying (D : Deployer δ) (trace : Trace) (r : OperatorSource) (packages : Value) :
    Activity (Shared δ) (OperatorSource × Except Fault Verdict) := do
  let (derived, ensured) ← Shared.onCluster (D.ensure trace (r.derived packages))
  match ensured with
  | .error f =>
    if f.isCancellation then return (r, .error f)
    else
      Source.track r f
      return (r, .ok (.retry f))
  | .ok () =>
    match (← Shared.populate D derived).2 with
    | .error f => return (r, .error f)
    | .ok () =>
      Source.untrack r
      return ({ r with packages }, .ok .configured)

/-- Configuring an operator source begins with what packages it has. -/
theorem configure_eq (D : Deployer δ) (trace : Trace) (r : OperatorSource) :
    Source.configure D trace r = Source.recordPackages r >>= deploying D trace r :=
  rfl

/-- Configuring a source is allowed for if each of its steps is. -/
theorem obeys_deploying (hR : Sequential R) {trace : Trace} {r : OperatorSource} {packages : Value}
    (hensure : (Shared.onCluster (D.ensure trace (r.derived packages))).Obeys R)
    (hpopulate : ∀ x, (Shared.populate D x).Obeys R) (htrack : ∀ f, (Source.track r f).Obeys R)
    (huntrack : (Source.untrack r).Obeys R) : (deploying D trace r packages).Obeys R := by
  refine .bind hR hensure ?_
  rintro ⟨derived, ensured⟩
  cases ensured with
  | error f =>
    dsimp only
    split
    · exact .pure hR _
    · exact .bind hR (htrack f) fun _ => .pure hR _
  | ok _ =>
    refine .bind hR (hpopulate derived) ?_
    rintro ⟨_, populated⟩
    cases populated with
    | error f => exact .pure hR _
    | ok _ => exact .bind hR huntrack fun _ => .pure hR _

/-- The handler that configures operator sources is allowed for. -/
theorem obeys_source_configure (hR : Allows D R) {r : OperatorSource} (hr : Books R r.key)
    (trace : Trace) : (Source.configure D trace r).Obeys R := by
  rw [configure_eq]
  refine .bind hR.toSequential (hr.record r rfl) fun packages => ?_
  exact obeys_deploying hR.toSequential (hR.ensure trace _) hR.populate
    (fun f => hr.track r f rfl) (hr.untrack r rfl)

/-- The handler that checks configured operator sources is allowed for. -/
theorem obeys_source_check (hR : Allows D R) {r : OperatorSource} (hr : Books R r.key)
    (trace : Trace) : (Source.check trace r).Obeys R := by
  refine .bind hR.toSequential (hR.look (Cluster.looks_workloadIsStale r.ns r.name)) fun x => ?_
  cases x with
  | error f => exact .pure hR.toSequential _
  | ok stale =>
    cases stale with
    | false => exact .pure hR.toSequential _
    | true => exact .bind hR.toSequential (hr.record r rfl) fun _ => .pure hR.toSequential _

/-- What configuring a catalog source config does once the deployer has returned. -/
def answering (D : Deployer δ) (x : CatalogSourceConfig × Except Fault Unit) :
    Activity (Shared δ) (CatalogSourceConfig × Except Fault Verdict) :=
  match x.2 with
  | .error f => if f.isCancellation then pure (x.1, .error f) else pure (x.1, .ok (.retry f))
  | .ok () => do
    let (r, populated) ← Shared.populate D x.1
    return (r, populated.map fun () => .configured)

/-- Configuring a catalog source config begins with the note on it. -/
theorem catalog_configure_eq (D : Deployer δ) (trace : Trace) (r : CatalogSourceConfig) :
    Catalog.configure D trace r =
      remember r >>= fun _ => Shared.onCluster (D.ensure trace r) >>= answering D :=
  rfl

/-- What follows the deployer is allowed for. -/
theorem obeys_answering (hR : Allows D R) (x : CatalogSourceConfig × Except Fault Unit) :
    (answering D x).Obeys R := by
  obtain ⟨out, ensured⟩ := x
  cases ensured with
  | error f =>
    unfold answering
    dsimp only
    split
    · exact .pure hR.toSequential _
    · exact .pure hR.toSequential _
  | ok _ => exact .bind hR.toSequential (hR.populate out) fun _ => .pure hR.toSequential _

/-- The handler that configures catalog source configs is allowed for. -/
theorem obeys_catalog_configure (hR : Allows D R) {r : CatalogSourceConfig} (hr : Books R r.key)
    (trace : Trace) : (Catalog.configure D trace r).Obeys R := by
  rw [catalog_configure_eq]
  refine .bind hR.toSequential (hr.remember r rfl) fun _ => ?_
  exact .bind hR.toSequential (hR.ensure trace r) (obeys_answering hR)

/-- The handler that checks configured catalog source configs is allowed for. -/
theorem obeys_catalog_check (hR : Allows D R) (trace : Trace) (r : CatalogSourceConfig) :
    (Catalog.check trace r).Obeys R := by
  have looks : Call.Looks (Catalog.needsReset r : Call (Cluster δ) Bool) := by
    refine .bind (Cluster.looks_childMissing r) fun missing => ?_
    cases missing with
    | true => exact .pure true
    | false => exact Cluster.looks_workloadIsStale r.ns r.name
  refine .bind hR.toSequential (hR.look looks) fun x => ?_
  cases x with
  | error f => exact .pure hR.toSequential _
  | ok stale => cases stale <;> exact .pure hR.toSequential _

/-! ### The reconcile -/

variable {Spec Packages : Type} [ManagedKind Spec Packages]
  {d : Dispatcher (Shared δ) (Managed Spec Packages)} {r : Managed Spec Packages}
  {deleted : DeletionHook δ} {K : ObjectKey} {s t : Shared δ}

/-- A dispatch obeys a relation if the handlers in the table do that are for the phase of the
resource. -/
theorem obeys_dispatch_of_handler (hR : Sequential R)
    (h : ∀ name rec, d.table.find? name = some rec → r.phase.name = .text rec.phase → ∀ trace,
      (rec.handle trace r).Obeys R)
    (trace : Trace) : (d.dispatch trace r).Obeys R := by
  unfold Dispatcher.dispatch
  split
  · exact .pure hR _
  · next rec hrec =>
    obtain ⟨name, hname⟩ := exists_find?_of_reconcilerFor hrec
    unfold Dispatcher.invoke
    split
    · exact .pure hR _
    · next hphase =>
      have hr := name_of_checkPhase hphase
      split
      · exact .pure hR _
      · exact .bind hR (.within hR (h name rec hname hr _) d.seconds?) fun _ => .pure hR _

/-- The dispatch of a resource of either kind obeys a relation that allows for its parts. -/
theorem obeys_dispatch (hR : Allows D R) (hd : Standard D d) (hr : Books R r.key) (trace : Trace) :
    (d.dispatch trace r).Obeys R := by
  refine obeys_dispatch_of_handler hR.toSequential (fun name rec hrec _ trace => ?_) trace
  cases hd with
  | source limit =>
    rcases source_reconciler_cases hrec with rfl | rfl | rfl | rfl
    · exact .pure hR.toSequential _
    · exact obeys_source_configure hR hr trace
    · exact obeys_source_check hR hr trace
    · exact .pure hR.toSequential _
  | catalog limit =>
    rcases catalog_reconciler_cases hrec with rfl | rfl | rfl | rfl
    · exact .pure hR.toSequential _
    · exact obeys_catalog_configure hR hr trace
    · exact obeys_catalog_check hR trace r
    · exact .pure hR.toSequential _

/-- Settling and writing back are something that is done to the cluster. -/
theorem obeys_finish (hR : Allows D R) (r : Managed Spec Packages)
    (x : Except Fault (Outcome (Managed Spec Packages))) : (finish r x).Obeys R := by
  cases x with
  | error f => exact .pure hR.toSequential _
  | ok o =>
    refine .step fun s => ?_
    have hclock : R s { s with cluster := { s.cluster with
        clock := (o.settle s.cluster.clock).2 } } := hR.aside s _ ⟨rfl, rfl, rfl, id⟩
    dsimp only
    split
    · exact hclock
    · exact hR.trans hclock (hR.update _ _)

/-- Finishing changes nothing but the objects, the feed and the clock. -/
theorem exists_finish_eq {x : Except Fault (Outcome (Managed Spec Packages))}
    {result : Except Fault Bool} (h : finish r x s = .finished t result) :
    ∃ store feed clock, t = { s with cluster := { s.cluster with store, feed, clock } } := by
  cases x with
  | error f =>
    cases h
    exact ⟨s.cluster.store, s.cluster.feed, s.cluster.clock, rfl⟩
  | ok o =>
    have hstate := congrArg Run.state h
    unfold finish Activity.step at hstate
    dsimp only at hstate
    split at hstate
    · exact ⟨_, _, _, hstate.symm⟩
    · obtain ⟨feed, hupdate⟩ := Cluster.exists_update_eq (o.settle s.cluster.clock).1.toManifest
        { s.cluster with clock := (o.settle s.cluster.clock).2 }
      rw [hupdate] at hstate
      exact ⟨_, feed, _, hstate.symm⟩

/-- A reconcile obeys a relation that allows for its parts and for what is done when the object is
gone. -/
theorem obeys_reconcile (hR : Allows D R) (hd : Standard D d)
    (hbooks : ∀ (r : Managed Spec Packages) (s' : Shared δ), Reads K s r s' → Books R r.key)
    (hdel : (deleted K).run.Obeys R) : ((reconcile d deleted K).run s).Obeys R s := by
  rw [reconcile_run]
  have hread := hR.aside s _ (Cluster.looks_get K (.only (ManagedKind.kind Spec)) s.cluster)
  cases hget : Call.runOn (Cluster.get K (.only (ManagedKind.kind Spec))) s.cluster with
  | mk cluster x =>
    rw [hget] at hread
    cases x with
    | error f => exact hread
    | ok m =>
      dsimp only
      -- Either the object is gone, and what is due then is done, or it is dispatched and finished.
      cases hm : (m.bind ManagedKind.ofManifest? : Option (Managed Spec Packages)) with
      | none =>
        have hgone : Activity.Obeys R
            (do deleted K; return false : Attempt (Shared δ) Bool).run := by
          refine .bind hR.toSequential hdel fun x => ?_
          cases x <;> exact .pure hR.toSequential _
        exact (hgone _).before hR.toSequential hread
      | some r =>
        obtain ⟨m, rfl, hr⟩ := Option.bind_eq_some_iff.1 hm
        rw [ManagedKind.ofManifest?_eq_some_iff] at hr
        subst hr
        have hdispatch := obeys_dispatch hR hd (hbooks r _ ⟨cluster, hget, rfl⟩) []
        refine Run.Obeys.before hR.toSequential ?_ hread
        exact (hdispatch _).bind hR.toSequential (obeys_finish hR r)

end

end CatalogOperator.Proofs.Reconcile
