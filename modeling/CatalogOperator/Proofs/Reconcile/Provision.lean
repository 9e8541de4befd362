import CatalogOperator.Proofs.Activity.Endings
import CatalogOperator.Proofs.Reconcile.Drift
import CatalogOperator.Proofs.Reconcile.Validation

/-!
# `CatalogOperator.Proofs.Reconcile.Provision`: deployers that provide the registry resources

A deployer that provides the registry resources of a managed resource always returns, leaves them in
place with their proxy variables in order, and writes no managed resource. With such a deployer each
dispatch of a valid resource comes to its end, and what it comes out as depends on the phase alone.

* `Stocked`: a store as the operator finds it. `Installed`, `Provides`: what a deployer does to it.
* `Kit`: the reconcilers of the two managed kinds, without a deadline.
* `Kit.dispatch_initial`, `Kit.ends_dispatch_configuring`, `Kit.dispatch_succeeded`: the dispatch of
  a resource, phase by phase.
-/

set_option autoImplicit false

namespace CatalogOperator.Proofs.Reconcile

open CatalogOperator.Proofs.Proxy (Distinct)

variable {δ : Type}

/-! ### Deployers that provide the registry resources -/

/-- A store as the operator finds it: no call fails, every object stands under its own key, and under
every key of a deployment there is one whose variables are named apart. -/
structure Stocked (c : Cluster δ) : Prop where
  clear : c.store.outages = []
  filed : c.store.Filed
  deployments : ∀ key m, key.kind = .text Kind.deployment → c.store.objects.find? key = some m →
    ∃ d, m = .deployment d ∧ Distinct d.env

/-- Whether a key is of one of the managed kinds. -/
def IsManaged (key : ObjectKey) : Prop :=
  key.kind = .text Kind.operatorSource ∨ key.kind = .text Kind.catalogSourceConfig

/-- What a deployer leaves of a cluster: the registry resources are in place, the variables of the
deployment have been put in order, and no managed resource has been written. -/
structure Installed (S : Site) (c c' : Cluster δ) : Prop where
  clear : c'.store.outages = []
  filed : c'.store.Filed
  config : c'.proxy.config = c.proxy.config
  available : c'.proxy.available = c.proxy.available
  managed : ∀ key, IsManaged key → c'.store.objects.find? key = c.store.objects.find? key
  catalogSource : c'.store.objects.contains S.catalogSource = true
  service : c'.store.objects.contains S.service = true
  deployment : ∃ d, c'.store.objects.find? S.workload = some (.deployment d) ∧
    d.env = c.proxy.manage (envAt S.workload c)

/-- Where the registry resources of a catalog source config are. -/
def catalogSite (r : CatalogSourceConfig) : Site :=
  ⟨r.spec.targetNamespace, r.ns, r.name⟩

/-- Those of an operator source are all beside it. -/
def sourceSite (r : OperatorSource) : Site :=
  ⟨r.ns, r.ns, r.name⟩

/-- A deployer that always returns and leaves the registry resources at a site in place. It may change
the resource it is given, but not where its registry resources are. Filling in packages succeeds and
changes nothing else. -/
structure Provides (D : Deployer δ) (S : Site) : Prop where
  ensure : ∀ trace r c, catalogSite r = S → Stocked c →
    (D.ensure trace r c).Ends Still fun c' y =>
      Installed S c c' ∧ catalogSite y.1 = S ∧ y.2 = .ok ()
  populate : ∀ r c, ∃ packages surroundings,
    D.populate r c = ({ c with surroundings }, { r with packages }, .ok ())

/-- What is installed can be looked up. -/
theorem Installed.usable {S : Site} {c c' : Cluster δ} (h : Installed S c c') :
    ∀ key ∈ S.children, key.fault? = none := by
  have found : ∀ key, c'.store.objects.contains key = true → key.fault? = none := by
    intro key hkey
    obtain ⟨m, hm⟩ := Option.isSome_iff_exists.mp hkey
    exact (Store.keyOf_eq_ok_iff.mp (h.filed key m hm)).2
  obtain ⟨d, hd, -⟩ := h.deployment
  have hworkload : c'.store.objects.contains S.workload = true := by
    rw [Table.contains, hd]
    rfl
  intro key hkey
  simp only [Site.children, List.mem_cons, List.not_mem_nil, or_false] at hkey
  rcases hkey with rfl | rfl | rfl
  · exact found _ h.catalogSource
  · exact found _ hworkload
  · exact found _ h.service

/-- A deployer that provides the registry resources at a site can do so only if their keys can be
looked up. -/
theorem Provides.usable {D : Deployer δ} {S : Site} {c : Cluster δ} (hD : Provides D S)
    (hc : Stocked c) : ∀ key ∈ S.children, key.fault? = none := by
  let r : CatalogSourceConfig :=
    { name := S.name, ns := S.ns, spec := { targetNamespace := S.target }, packages := [] }
  have hends := hD.ensure [] r c rfl hc
  obtain ⟨c', y, -, hinstalled, -⟩ := hends.exists_leads Still.refl
  exact hinstalled.usable

/-! ### Configuring -/

/-- Whether others leave alone all that a reconcile and its deployer go by. -/
def Calm (s s' : Shared δ) : Prop :=
  Still s.cluster s'.cluster

section Configuring

variable {S : Site} {s : Shared δ} {D : Deployer δ}

/-- Such a deployer comes to its end with the registry resources in place. -/
theorem ends_ensure (hD : Provides D S) {r : CatalogSourceConfig} (hr : catalogSite r = S)
    (hs : Stocked s.cluster) (trace : Trace) :
    (Shared.onCluster (D.ensure trace r) s).Ends Calm fun t y =>
      Installed S s.cluster t.cluster ∧ catalogSite y.1 = S ∧ y.2 = .ok () :=
  (hD.ensure trace r s.cluster hr hs).zoom fun _ _ => rfl

/-- Filling in packages comes to its end with nothing else changed. -/
theorem ends_populate (hD : Provides D S) (r : CatalogSourceConfig) (s : Shared δ) :
    (Shared.populate D r s).Ends Calm fun t y =>
      (∃ surroundings, t.cluster = { s.cluster with surroundings }) ∧
        ∃ packages, y = ({ r with packages }, .ok ()) := by
  obtain ⟨packages, surroundings, h⟩ := hD.populate r s.cluster
  show (∃ surroundings, (D.populate r s.cluster).1 = { s.cluster with surroundings }) ∧
    ∃ packages, (D.populate r s.cluster).2 = ({ r with packages }, .ok ())
  rw [h]
  exact ⟨⟨surroundings, rfl⟩, packages, rfl⟩

/-- The surroundings are no part of what is installed. -/
theorem Installed.surroundings {c c' : Cluster δ} (h : Installed S c c') (surroundings : δ) :
    Installed S c { c' with surroundings } :=
  ⟨h.clear, h.filed, h.config, h.available, h.managed, h.catalogSource, h.service, h.deployment⟩

/-- Configuring an operator source comes to an end with the registry resources in place. -/
theorem ends_source_configure {r : OperatorSource} (hD : Provides D (sourceSite r))
    (hs : Stocked s.cluster) (trace : Trace) :
    (Source.configure D trace r s).Ends Calm fun t x =>
      Installed (sourceSite r) s.cluster t.cluster ∧
        ∃ packages, x = ({ r with packages }, .ok .configured) := by
  have hrecord : (Source.recordPackages r s).Ends Calm fun t _ => t.cluster = s.cluster := rfl
  refine hrecord.andThen fun packages t ht => ?_
  have hensure := ends_ensure hD (s := t) (r := r.derived packages) rfl (ht ▸ hs) trace
  refine hensure.andThen ?_
  rintro ⟨derived, ensured⟩ u ⟨hinstalled, -, hok⟩
  cases hok
  refine (ends_populate hD derived u).andThen ?_
  rintro _ v ⟨⟨surroundings, hv⟩, _, rfl⟩
  rw [ht] at hinstalled
  have hfilled := hinstalled.surroundings surroundings
  rw [← hv] at hfilled
  exact ⟨hfilled, packages, rfl⟩

/-- So does configuring a catalog source config, which the deployer itself works on. -/
theorem ends_catalog_configure {r : CatalogSourceConfig} (hD : Provides D (catalogSite r))
    (hs : Stocked s.cluster) (trace : Trace) :
    (Catalog.configure D trace r s).Ends Calm fun t x =>
      Installed (catalogSite r) s.cluster t.cluster ∧
        ∃ out, catalogSite out = catalogSite r ∧ x = (out, .ok .configured) := by
  have hremember : ((Shared.modify fun s => { s with
      lastKnownGood := s.lastKnownGood.insert r.key r } : Activity (Shared δ) Unit) s).Ends
      Calm fun t _ => t.cluster = s.cluster := rfl
  refine hremember.andThen fun _ t ht => ?_
  have hensure := ends_ensure hD (s := t) rfl (ht ▸ hs) trace
  refine hensure.andThen ?_
  rintro ⟨out, ensured⟩ u ⟨hinstalled, hsite, hok⟩
  cases hok
  refine (ends_populate hD out u).andThen ?_
  rintro _ v ⟨⟨surroundings, hv⟩, packages, rfl⟩
  rw [ht] at hinstalled
  have hfilled := hinstalled.surroundings surroundings
  rw [← hv] at hfilled
  exact ⟨hfilled, { out with packages }, hsite, rfl⟩

end Configuring

/-! ### The reconcilers of the two kinds -/

/-- The reconcilers of a managed kind without a deadline, for any deployer: how a resource is
validated, where its registry resources are, and which of them it wants. -/
inductive Kit : {Spec Packages : Type} → [ManagedKind Spec Packages] →
    (Deployer δ → Dispatcher (Shared δ) (Managed Spec Packages)) →
    (Managed Spec Packages → Except Fault (Option String)) → (Managed Spec Packages → Site) →
    (Site → List ObjectKey) → Prop
  | source : Kit (fun D => Source.dispatcher D none) (fun r => .ok (OperatorSource.problem? r))
      sourceSite fun _ => []
  | catalog : Kit (fun D => Catalog.dispatcher D none) CatalogSourceConfig.problem? catalogSite
      Site.children

section

variable {Spec Packages : Type} [ManagedKind Spec Packages]
  {d : Deployer δ → Dispatcher (Shared δ) (Managed Spec Packages)}
  {problem? : Managed Spec Packages → Except Fault (Option String)}
  {site : Managed Spec Packages → Site} {wanted : Site → List ObjectKey} {D : Deployer δ}
  {r : Managed Spec Packages} {s t : Shared δ}

/-- A resource is dispatched to the reconciler of its phase. -/
theorem dispatch_of_phase {d : Dispatcher (Shared δ) (Managed Spec Packages)}
    (rec : Reconciler (Shared δ) (Managed Spec Packages)) (hd : d.table.find? rec.phase = some rec)
    (hlimit : d.limitFault? = none) (hp : r.phase.name = .text rec.phase) (trace : Trace)
    (s : Shared δ) :
    d.dispatch trace r s = Run.bind
      ((rec.handle (trace.enter (rec.label ++ " " ++ r.key.text)) r s).within d.seconds?)
      fun x => Activity.pure (d.conclude r x.1.1 x.1.2 x.2) := by
  unfold Dispatcher.dispatch
  rw [reconcilerFor_of_find? hp hd]
  exact invoke_run hp hlimit trace s

/-- What follows a call on the cluster goes on from what the call left. -/
theorem callCluster_bind {α β : Type} (c : Call (Cluster δ) α)
    (f : Except Fault α → Activity (Shared δ) β) (s : Shared δ) :
    (Shared.callCluster c >>= f) s =
      f (c.runOn s.cluster).2 { s with cluster := (c.runOn s.cluster).1 } :=
  rfl

/-- What a call finds out without changing the cluster is known at once. -/
theorem callCluster_of_runOn {α β : Type} {c : Call (Cluster δ) α} {x : Except Fault α}
    (h : c.runOn s.cluster = (s.cluster, x)) (f : Except Fault α → Activity (Shared δ) β) :
    (Shared.callCluster c >>= f) s = f x s := by
  rw [callCluster_bind, h]

namespace Kit

/-- Only the two managed kinds have a kit. -/
theorem isManaged (h : Kit d problem? site wanted) (r : Managed Spec Packages) :
    IsManaged r.key := by
  cases h with
  | source => exact .inl rfl
  | catalog => exact .inr rfl

/-- The deployment stands beside the resource. -/
theorem ns_eq (h : Kit d problem? site wanted) (r : Managed Spec Packages) :
    (site r).ns = r.ns ∧ (site r).name = r.name := by
  cases h with
  | source => exact ⟨rfl, rfl⟩
  | catalog => exact ⟨rfl, rfl⟩

/-- Nothing is wanted but registry resources. -/
theorem wanted_subset (h : Kit d problem? site wanted) (S : Site) :
    ∀ key ∈ wanted S, key ∈ S.children := by
  cases h with
  | source =>
    intro key hkey
    cases hkey
  | catalog => exact fun key hkey => hkey

/-- The status of a resource does not tell where its registry resources are. -/
theorem site_eq (h : Kit d problem? site wanted) (r : Managed Spec Packages) (phase : PhaseRecord)
    (packages : Packages) : site { r with phase, packages } = site r := by
  cases h with
  | source => rfl
  | catalog => rfl

/-- A valid new resource is scheduled for configuring. -/
theorem dispatch_initial (h : Kit d problem? site wanted)
    (hp : r.phase.name = .text Phase.initial.text) (hvalid : problem? r = .ok none)
    (s : Shared δ) :
    (d D).dispatch [] r s =
      .finished s (.ok { resource := r, next := some (.into .configuring scheduledMessage) }) := by
  have htable : (d D).table.find? Phase.initial.text = some (.initial problem?) := by
    cases h with
    | source => rfl
    | catalog => rfl
  have hlimit : (d D).limitFault? = none := by
    cases h with
    | source => rfl
    | catalog => rfl
  rw [Reconcile.dispatch_initial htable hlimit hp, hvalid]
  rfl

/-- What the check of a configured resource comes out as. -/
theorem dispatch_succeeded (h : Kit d problem? site wanted)
    (hp : r.phase.name = .text Phase.succeeded.text)
    (hs : Legible (wanted (site r)) (site r).workload s.cluster) {drifted : Bool}
    (hdrift : drift? (wanted (site r)) (site r).workload s.cluster = .ok drifted) :
    if drifted then ∃ t : Shared δ, t.cluster = s.cluster ∧ (d D).dispatch [] r s =
        .finished t (.ok { resource := r.resetStatus, next := some (.into .configuring) })
    else (d D).dispatch [] r s = .finished s (.ok { resource := r }) := by
  -- The two kinds differ in what they look for and in that the packages of a source are recorded.
  cases h with
  | source =>
    have hrun : Call.runOn (Cluster.workloadIsStale r.ns r.name) s.cluster =
        (s.cluster, .ok drifted) :=
      (runOn_workloadIsStale hs).trans (congrArg (Prod.mk s.cluster) hdrift)
    have hcheck : ∀ trace, Source.check trace r s = _ := fun _ => callCluster_of_runOn hrun _
    rw [dispatch_of_phase Source.succeeded rfl rfl hp]
    simp only [Source.succeeded, hcheck]
    cases drifted with
    | false => rfl
    | true => exact ⟨{ s with packages := PackageIndex.record s.packages r }, rfl, rfl⟩
  | catalog =>
    have hrun : Call.runOn (Catalog.needsReset r) s.cluster = (s.cluster, .ok drifted) :=
      (runOn_needsReset hs).trans (congrArg (Prod.mk s.cluster) hdrift)
    have hcheck : ∀ trace, Catalog.check trace r s = _ := fun _ => callCluster_of_runOn hrun _
    rw [dispatch_of_phase Catalog.succeeded rfl rfl hp]
    simp only [Catalog.succeeded, hcheck]
    cases drifted with
    | false => rfl
    | true => exact ⟨s, rfl, rfl⟩

/-- Configuring comes to an end with the registry resources in place. -/
theorem ends_dispatch_configuring (h : Kit d problem? site wanted) (hD : Provides D (site r))
    (hp : r.phase.name = .text Phase.configuring.text) (hs : Stocked s.cluster) :
    ((d D).dispatch [] r s).Ends Calm fun t x => Installed (site r) s.cluster t.cluster ∧
      ∃ out, site out = site r ∧
        x = .ok { resource := out, next := some (.into .succeeded) } := by
  cases h with
  | source =>
    rw [dispatch_of_phase (Source.configuring D) rfl rfl hp]
    refine (ends_source_configure hD hs _).within_none.bind ?_
    rintro ⟨⟨out, ended⟩, expired⟩ t ⟨⟨hinstalled, packages, hx⟩, -⟩
    cases hx
    exact ⟨hinstalled, { r with packages }, rfl, rfl⟩
  | catalog =>
    rw [dispatch_of_phase (Catalog.configuring D) rfl rfl hp]
    refine (ends_catalog_configure hD hs _).within_none.bind ?_
    rintro ⟨⟨out, ended⟩, expired⟩ t ⟨⟨hinstalled, out', hsite, hx⟩, -⟩
    cases hx
    exact ⟨hinstalled, out, hsite, rfl⟩

end Kit

end

end CatalogOperator.Proofs.Reconcile
