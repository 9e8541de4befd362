import CatalogOperator.Proofs.Reconcile.Lifecycle
import CatalogOperator.Proofs.Reconcile.Provision

/-!
# `CatalogOperator.Proofs.Reconcile.Convergence`: two reconciles are enough

A deployer that provides the registry resources of a managed resource brings it into `Succeeded`
within two reconciles. From then on a reconcile changes nothing, as long as the objects and the proxy
values stay as they are: the deployer has put the proxy variables in order the way the check asks for,
so there is no way back into `Configuring`.

* `Prepared`, `Converged`: the states before the deployer is called and after that. A reconcile goes
  from phase to phase (`ends_of_initial`, `ends_of_configuring`, `converged_or_ends_of_succeeded`), and
  a converged state is left as it is (`Converged.run_eq`).
* `Converges`: whether two reconciles are enough.
* `converges`: they are, provided that comparing the variables can tell that they are in order.
  `not_converges_of_untellable` says that it has to: a variable whose name is a list makes every further
  reconcile fail, and a value that is no number resets the resource again and again.
-/

set_option autoImplicit false

namespace CatalogOperator.Proofs.Reconcile

open CatalogOperator.Proofs.Proxy (Distinct)

variable {δ : Type}

section

variable {Spec Packages : Type} [ManagedKind Spec Packages]
  {d : Deployer δ → Dispatcher (Shared δ) (Managed Spec Packages)}
  {problem? : Managed Spec Packages → Except Fault (Option String)}
  {site : Managed Spec Packages → Site} {wanted : Site → List ObjectKey} {D : Deployer δ}
  {r : Managed Spec Packages} {s t : Shared δ}

/-! ### Writing back -/

/-- Whether a resource has been put under its own key, and nothing else has changed that matters. -/
structure Wrote (r : Managed Spec Packages) (c c' : Cluster δ) : Prop where
  objects : c'.store.objects = c.store.objects.insert r.key r.toManifest
  outages : c'.store.outages = []
  config : c'.proxy.config = c.proxy.config
  available : c'.proxy.available = c.proxy.available

/-- Where no call fails, an outcome in another phase is written. -/
theorem exists_wrote [ManagedContent Spec] {o : Outcome (Managed Spec Packages)} {next : Transition}
    (ho : s.cluster.store.outages = []) (hk : o.resource.key.fault? = none)
    (hat : objectAt o.resource.key s = some r.toManifest) (hnext : o.next = some next)
    (hne : r.phase.name ≠ .text next.name) (herr : o.error = none) :
    ∃ t, finish r (.ok o) s = .finished t (.ok false) ∧
      Wrote (o.settle s.cluster.clock).1 s.cluster t.cluster := by
  obtain ⟨t, hfin⟩ := finish_of_clear (r := r) (o := o) ho hk hat
  rw [herr] at hfin
  obtain ⟨hname, hmsg⟩ := settle_of_some hnext s.cluster.clock
  have hdiffers : (o.settle s.cluster.clock).1.toManifest.same r.toManifest = false := by
    rw [Bool.eq_false_iff]
    intro hsame
    rw [Manifest.same_comm] at hsame
    exact hne (Managed.phase_of_same hsame hname hmsg).1
  have hobjects : t.cluster.store.objects = s.cluster.store.objects.insert
      (o.settle s.cluster.clock).1.key (o.settle s.cluster.clock).1.toManifest := by
    rcases finish_cases hfin with ⟨hsame, -, -⟩ | ⟨_, -, hf, -⟩ | ⟨existing, -, -, hfound, hobj⟩
    · rw [hdiffers] at hsame
      cases hsame
    · cases hf
    · -- What stands there is what was read.
      rw [settle_key] at hfound
      have heq : existing = r.toManifest := Option.some.inj (hfound.symm.trans hat)
      rw [hobj, heq, Manifest.same_comm, hdiffers, if_neg Bool.false_ne_true]
  have hcluster : ∃ feed, t.cluster = { s.cluster with
      store := (s.cluster.store.update (o.settle s.cluster.clock).1.toManifest).1
      clock := (o.settle s.cluster.clock).2
      feed } := by
    obtain ⟨feed, hupdate⟩ := Cluster.exists_update_eq (o.settle s.cluster.clock).1.toManifest
      { s.cluster with clock := (o.settle s.cluster.clock).2 }
    have hstate := congrArg (fun run => run.state.cluster) hfin
    unfold finish Activity.step at hstate
    dsimp only at hstate
    rw [if_neg (by rw [hdiffers]; exact Bool.false_ne_true)] at hstate
    exact ⟨feed, hstate.symm.trans hupdate⟩
  obtain ⟨feed, hcluster⟩ := hcluster
  refine ⟨t, hfin, hobjects, ?_, ?_, ?_⟩
  · rw [hcluster]
    exact Store.outages_update_of_clear ho _
  · rw [hcluster]
  · rw [hcluster]

/-- No registry resource is a managed resource. -/
theorem Site.not_isManaged (S : Site) : ∀ key ∈ S.children, ¬ IsManaged key := by
  intro key hkey hm
  simp only [Site.children, List.mem_cons, List.not_mem_nil, or_false] at hkey
  rcases hkey with rfl | rfl | rfl <;> rcases hm with hm | hm <;>
    exact absurd (Value.text.inj hm) (by decide)

/-- The deployment is one of the registry resources. -/
theorem Site.workload_mem (S : Site) : S.workload ∈ S.children :=
  List.mem_cons_of_mem _ List.mem_cons_self

namespace Wrote

variable {c c' : Cluster δ}

/-- Only managed resources are written. -/
theorem find?_eq (h : Wrote r c c') (hr : IsManaged r.key) {key : ObjectKey}
    (hkey : ¬ IsManaged key) : c'.store.objects.find? key = c.store.objects.find? key := by
  have hne : r.key ≠ key := by
    rintro rfl
    exact hkey hr
  rw [h.objects, Table.find?_insert, if_neg hne]

/-- Writing a resource leaves the environment of the deployment as it is. -/
theorem envAt_eq (h : Wrote r c c') (hr : IsManaged r.key) (S : Site) :
    envAt S.workload c' = envAt S.workload c := by
  unfold envAt
  rw [h.find?_eq hr (S.not_isManaged _ S.workload_mem)]

/-- Writing a resource leaves the store as the operator wants to find it. -/
theorem stocked (h : Wrote r c c') (hr : IsManaged r.key) (hk : r.key.fault? = none)
    (hc : Stocked c) : Stocked c' where
  clear := h.outages
  filed key m hm := by
    rw [h.objects, Table.find?_insert] at hm
    split at hm
    · next heq =>
      cases hm
      rw [← heq]
      exact keyOf_of_usable hk
    · exact hc.filed key m hm
  deployments key m hkind hm := by
    have hkey : ¬ IsManaged key := by
      rintro (hk | hk) <;> rw [hkind] at hk <;> exact absurd (Value.text.inj hk) (by decide)
    rw [h.find?_eq hr hkey] at hm
    exact hc.deployments key m hkind hm

/-- The check of a resource does not see that it was written. -/
theorem drift?_eq (h : Wrote r c c') (hr : IsManaged r.key) {S : Site} {keys : List ObjectKey}
    (hkeys : ∀ key ∈ keys, key ∈ S.children) :
    drift? keys S.workload c' = drift? keys S.workload c := by
  have hany : (keys.any fun key => !c'.store.objects.contains key) =
      keys.any fun key => !c.store.objects.contains key := by
    rw [Bool.eq_iff_iff, List.any_eq_true, List.any_eq_true]
    refine exists_congr fun key => and_congr_right fun hkey => ?_
    unfold Table.contains
    rw [h.find?_eq hr (S.not_isManaged key (hkeys key hkey))]
  unfold drift?
  rw [hany, h.find?_eq hr (S.not_isManaged _ S.workload_mem),
    deploymentIsStale?_congr h.config h.available]

/-- After a resource is written the check can still tell. -/
theorem legible (h : Wrote r c c') (hr : IsManaged r.key) {S : Site} {keys : List ObjectKey}
    (hc : Legible keys S.workload c) : Legible keys S.workload c' where
  clear := h.outages
  usable := hc.usable
  located := hc.located
  deployment m hm := by
    rw [h.find?_eq hr (S.not_isManaged _ S.workload_mem)] at hm
    exact hc.deployment m hm

end Wrote

/-! ### From phase to phase -/

/-- Whether a resource of a site stands under a key in a phase. -/
def Stands (site : Managed Spec Packages → Site) (K : ObjectKey) (S : Site) (p : Phase)
    (s : Shared δ) : Prop :=
  ∃ r : Managed Spec Packages, r.key = K ∧ site r = S ∧ r.phase.name = .text p.text ∧
    objectAt K s = some r.toManifest

/-- A cluster in which a resource can be configured so that its check passes afterwards. -/
structure Prepared (S : Site) (c : Cluster δ) : Prop where
  stocked : Stocked c
  tellable : Tellable c.proxy (envAt S.workload c)

/-- A state in which the check of a configured resource passes. -/
structure Converged (site : Managed Spec Packages → Site) (wanted : Site → List ObjectKey)
    (K : ObjectKey) (S : Site) (s : Shared δ) : Prop where
  stands : Stands site K S .succeeded s
  usable : K.fault? = none
  legible : Legible (wanted S) S.workload s.cluster
  upToDate : drift? (wanted S) S.workload s.cluster = .ok false

section

variable {c c' : Cluster δ} {S : Site} {K : ObjectKey} {p : Phase}

/-- An outcome that was written stands in its next phase. -/
theorem Wrote.stands (hkit : Kit d problem? site wanted) {o : Outcome (Managed Spec Packages)}
    {message : String} {clock : Clock} (hw : Wrote (o.settle clock).1 s.cluster t.cluster)
    (hnext : o.next = some (.into p message)) (hK : o.resource.key = K)
    (hS : site o.resource = S) : Stands site K S p t := by
  have hkey : (o.settle clock).1.key = K := (settle_key o clock).trans hK
  have hsite : site (o.settle clock).1 = S := by
    rw [settle_eq]
    exact (hkit.site_eq o.resource _ o.resource.packages).trans hS
  refine ⟨_, hkey, hsite, (settle_of_some hnext clock).1, ?_⟩
  unfold objectAt
  rw [hw.objects, hkey, Table.find?_insert_self]

/-- A resource stands as it did while nothing changes that a check goes by. -/
theorem Stands.quiet (h : Stands site K S p s) (hq : Quiet s.cluster t.cluster) :
    Stands site K S p t := by
  obtain ⟨r, hK, hS, hp, hat⟩ := h
  exact ⟨r, hK, hS, hp, (sameAt_of_objects_eq hq.objects K).trans hat⟩

/-- What stands in a well-filed store has a key that can be looked up. -/
theorem Stands.usable (h : Stands site K S p s) (hf : s.cluster.store.Filed) : K.fault? = none := by
  obtain ⟨r, -, -, -, hat⟩ := h
  exact (Store.keyOf_eq_ok_iff.mp (hf K _ hat)).2

/-- A store stays as the operator wants to find it while nothing changes that a check goes by. -/
theorem Stocked.quiet (h : Stocked c) (hq : Quiet c c') : Stocked c' where
  clear := hq.outages.trans h.clear
  filed key m hm := h.filed key m (by rwa [hq.objects] at hm)
  deployments key m hk hm := h.deployments key m hk (by rwa [hq.objects] at hm)

/-- The variables of the deployment have distinct names. -/
theorem Stocked.distinct_envAt (h : Stocked c) (S : Site) : Distinct (envAt S.workload c) := by
  unfold envAt
  cases hm : c.store.objects.find? S.workload with
  | none => exact List.Pairwise.nil
  | some m =>
    obtain ⟨d, rfl, hd⟩ := h.deployments _ m rfl hm
    exact hd

/-- In such a store the check can tell. -/
theorem Stocked.legible (h : Stocked c) {keys : List ObjectKey}
    (hkeys : ∀ key ∈ keys, key ∈ S.children) (hu : ∀ key ∈ S.children, key.fault? = none) :
    Legible keys S.workload c where
  clear := h.clear
  usable key hkey := hu key (hkeys key hkey)
  located := hu _ S.workload_mem
  deployment m hm := by
    obtain ⟨d, hd, -⟩ := h.deployments _ m rfl hm
    exact ⟨d, hd⟩

/-- A cluster stays prepared while nothing changes that a check goes by. -/
theorem Prepared.quiet (h : Prepared S c) (hq : Quiet c c') : Prepared S c' :=
  ⟨h.stocked.quiet hq, h.tellable.quiet hq⟩

/-- A cluster stays prepared when a resource is written. -/
theorem Prepared.wrote (h : Prepared S c) (hw : Wrote r c c') (hr : IsManaged r.key)
    (hk : r.key.fault? = none) : Prepared S c' where
  stocked := hw.stocked hr hk h.stocked
  tellable := by
    intro ha
    have hvars : c'.proxy.vars = c.proxy.vars := by
      unfold ProxyStore.vars
      rw [hw.config]
    rw [hvars, hw.envAt_eq hr]
    exact h.tellable (hw.available.symm.trans ha)

/-- What a deployer has installed passes the check. -/
theorem Installed.drift?_eq (h : Installed S c c') (hp : Prepared S c) {keys : List ObjectKey}
    (hkeys : ∀ key ∈ keys, key ∈ S.children) : drift? keys S.workload c' = .ok false := by
  obtain ⟨d, hd, henv⟩ := h.deployment
  have hchildren : ∀ key ∈ S.children, c'.store.objects.contains key = true := by
    intro key hkey
    simp only [Site.children, List.mem_cons, List.not_mem_nil, or_false] at hkey
    rcases hkey with rfl | rfl | rfl
    · exact h.catalogSource
    · rw [Table.contains, hd]
      rfl
    · exact h.service
  have hany : ¬ (keys.any fun key => !c'.store.objects.contains key) = true := by
    rw [List.any_eq_true]
    rintro ⟨key, hkey, hmissing⟩
    rw [hchildren key (hkeys key hkey)] at hmissing
    cases hmissing
  unfold drift?
  rw [if_neg hany, hd, deploymentIsStale?_congr h.config h.available]
  exact deploymentIsStale?_manage (hp.stocked.distinct_envAt S) hp.tellable henv

/-- Once the registry resources are installed the check can tell. -/
theorem Installed.legible (h : Installed S c c') {keys : List ObjectKey}
    (hkeys : ∀ key ∈ keys, key ∈ S.children) : Legible keys S.workload c' where
  clear := h.clear
  usable key hkey := h.usable key (hkeys key hkey)
  located := h.usable _ S.workload_mem
  deployment m hm := by
    obtain ⟨d, hd, -⟩ := h.deployment
    exact ⟨d, Option.some.inj (hm.symm.trans hd)⟩

/-- A converged state stays so while nothing changes that a check goes by. -/
theorem Converged.quiet (h : Converged site wanted K S s) (hq : Quiet s.cluster t.cluster) :
    Converged site wanted K S t where
  stands := h.stands.quiet hq
  usable := h.usable
  legible := h.legible.quiet hq
  upToDate := (drift?_congr hq _ _).trans h.upToDate

end

section

variable [ManagedContent Spec] {S : Site} {K : ObjectKey} {deleted : DeletionHook δ}

/-- A reconcile of a resource that can be read is its dispatch, finished. -/
theorem ends_reconcile {d : Dispatcher (Shared δ) (Managed Spec Packages)}
    {mid : Shared δ → Except Fault (Outcome (Managed Spec Packages)) → Prop}
    {post : Shared δ → Except Fault Bool → Prop} (ho : s.cluster.store.outages = [])
    (hk : K.fault? = none) (hat : objectAt K s = some r.toManifest)
    (h : (d.dispatch [] r s).Ends Calm mid)
    (hfin : ∀ x t, mid t x → (finish r x t).Ends Calm post) :
    ((reconcile d deleted K).run s).Ends Calm post := by
  rw [reconcile_run_of_reads (reads_of_clear ho hk hat)]
  exact h.bind hfin

/-- A dispatch that leaves the cluster as it is and moves the resource to `Configuring` makes a reconcile
that keeps the cluster prepared and stores the resource in this phase. -/
theorem ends_of_into_configuring (hkit : Kit d problem? site wanted) (hs : Prepared S s.cluster)
    (hat : objectAt r.key s = some r.toManifest)
    (hne : r.phase.name ≠ .text Phase.configuring.text) {o : Outcome (Managed Spec Packages)}
    {message : String} (hnext : o.next = some (.into .configuring message)) (herr : o.error = none)
    (hkey : o.resource.key = r.key) (hsite : site o.resource = S)
    (hdispatch : ((d D).dispatch [] r s).Ends Calm fun t x => t.cluster = s.cluster ∧ x = .ok o) :
    ((reconcile (d D) deleted r.key).run s).Ends Calm fun t x =>
      x = .ok false ∧ Prepared S t.cluster ∧ Stands site r.key S .configuring t := by
  have hk : r.key.fault? = none := (Store.keyOf_eq_ok_iff.mp (hs.stocked.filed _ _ hat)).2
  refine ends_reconcile hs.stocked.clear hk hat hdispatch ?_
  rintro _ t ⟨ht, rfl⟩
  have hs' : Prepared S t.cluster := by
    rw [ht]
    exact hs
  have hat' : objectAt o.resource.key t = some r.toManifest := by
    rw [hkey]
    exact (sameAt_of_objects_eq (congrArg (fun c : Cluster δ => c.store.objects) ht) _).trans hat
  have hk' : o.resource.key.fault? = none := by
    rw [hkey]
    exact hk
  obtain ⟨u, hfin, hw⟩ := exists_wrote hs'.stocked.clear hk' hat' hnext hne herr
  rw [hfin]
  refine ⟨rfl, hs'.wrote hw ?_ ?_, hw.stands hkit hnext hkey hsite⟩
  · rw [settle_key, hkey]
    exact hkit.isManaged r
  · rw [settle_key, hkey]
    exact hk

/-- A reconcile of a new resource that is valid schedules it for configuring. -/
theorem ends_of_initial (hkit : Kit d problem? site wanted) (hS : site r = S)
    (hs : Prepared S s.cluster) (hat : objectAt r.key s = some r.toManifest)
    (hp : r.phase.name = .text Phase.initial.text) (hvalid : problem? r = .ok none) :
    ((reconcile (d D) deleted r.key).run s).Ends Calm fun t x =>
      x = .ok false ∧ Prepared S t.cluster ∧ Stands site r.key S .configuring t := by
  refine ends_of_into_configuring hkit hs hat (phase_ne (by decide) hp)
    (o := { resource := r, next := some (.into .configuring scheduledMessage) }) rfl rfl rfl hS ?_
  -- The validation schedules the resource and does not touch the state.
  rw [hkit.dispatch_initial hp hvalid]
  exact ⟨rfl, rfl⟩

/-- A reconcile of a resource that is being configured ends in a state in which its check passes. -/
theorem ends_of_configuring (hkit : Kit d problem? site wanted) (hD : Provides D S)
    (hs : Prepared S s.cluster) (hstands : Stands site K S .configuring s) :
    ((reconcile (d D) deleted K).run s).Ends Calm fun t x =>
      x = .ok false ∧ Converged site wanted K S t := by
  have hk := hstands.usable hs.stocked.filed
  obtain ⟨r, rfl, rfl, hp, hat⟩ := hstands
  have hne : r.phase.name ≠ .text Phase.succeeded.text := phase_ne (by decide) hp
  refine ends_reconcile hs.stocked.clear hk hat
    (hkit.ends_dispatch_configuring hD hp hs.stocked) ?_
  rintro _ t ⟨hinstalled, out, hsite, rfl⟩
  let o : Outcome (Managed Spec Packages) := { resource := out, next := some (.into .succeeded) }
  -- The deployer may have changed the resource, but it still has its key.
  have hout : out.key = r.key := by
    obtain ⟨hns, hname⟩ := hkit.ns_eq out
    obtain ⟨hns', hname'⟩ := hkit.ns_eq r
    unfold Managed.key
    rw [← hns, ← hname, hsite, hns', hname']
  have hat' : objectAt out.key t = some r.toManifest := by
    rw [hout]
    exact (hinstalled.managed _ (hkit.isManaged r)).trans hat
  have hk' : out.key.fault? = none := by
    rw [hout]
    exact hk
  obtain ⟨u, hfin, hw⟩ := exists_wrote (o := o) hinstalled.clear hk' hat' rfl hne rfl
  rw [hfin]
  have hmanaged : IsManaged (o.settle t.cluster.clock).1.key := by
    rw [settle_key]
    exact hkit.isManaged out
  have hwanted := hkit.wanted_subset (site r)
  refine ⟨rfl, hw.stands hkit rfl hout hsite, hk, ?_, ?_⟩
  · exact hw.legible hmanaged (hinstalled.legible hwanted)
  · rw [hw.drift?_eq hmanaged hwanted]
    exact hinstalled.drift?_eq hs hwanted

/-- The check of a resource that can be configured says one thing or the other. -/
theorem Prepared.exists_drift? {c : Cluster δ} (h : Prepared S c) (keys : List ObjectKey) :
    ∃ drifted, drift? keys S.workload c = .ok drifted := by
  unfold drift?
  split
  · exact ⟨true, rfl⟩
  · exact exists_deploymentIsStale? h.tellable

/-- A configured resource passes its check, or a reconcile resets it. -/
theorem converged_or_ends_of_succeeded (hkit : Kit d problem? site wanted) (hD : Provides D S)
    (hs : Prepared S s.cluster) (hstands : Stands site K S .succeeded s) :
    Converged site wanted K S s ∨
      ((reconcile (d D) deleted K).run s).Ends Calm fun t x =>
        x = .ok false ∧ Prepared S t.cluster ∧ Stands site K S .configuring t := by
  have hk := hstands.usable hs.stocked.filed
  have hlegible := hs.stocked.legible (hkit.wanted_subset S) (hD.usable hs.stocked)
  -- The check can tell. If nothing has drifted the resource has come to rest, and otherwise its
  -- status is reset.
  obtain ⟨drifted, hdrift⟩ := hs.exists_drift? (wanted S)
  cases drifted with
  | false => exact .inl ⟨hstands, hk, hlegible, hdrift⟩
  | true =>
    right
    obtain ⟨r, rfl, rfl, hp, hat⟩ := hstands
    obtain ⟨t, ht, hreset⟩ := hkit.dispatch_succeeded (D := D) hp hlegible hdrift
    refine ends_of_into_configuring hkit hs hat (phase_ne (by decide) hp)
      (o := { resource := r.resetStatus, next := some (.into .configuring) }) rfl rfl rfl
      (hkit.site_eq r _ _) ?_
    rw [hreset]
    exact ⟨ht, rfl⟩

/-- A reconcile changes nothing in a state in which the check passes, and it does not matter to which
deployer it would turn. -/
theorem Converged.run_eq (hkit : Kit d problem? site wanted) (h : Converged site wanted K S s)
    (D : Deployer δ) : (reconcile (d D) deleted K).run s = .finished s (.ok false) := by
  obtain ⟨r, rfl, rfl, hp, hat⟩ := h.stands
  rw [reconcile_run_of_reads (reads_of_clear h.legible.clear h.usable hat)]
  have hdispatch := hkit.dispatch_succeeded (D := D) hp h.legible h.upToDate
  rw [if_neg Bool.false_ne_true] at hdispatch
  rw [hdispatch]
  show finish r (.ok { resource := r }) s = _
  unfold finish Activity.step Outcome.settle
  dsimp only
  rw [Manifest.same_refl, if_pos rfl]
  rfl

end

/-! ### Two reconciles are enough -/

/-- The states met from some state on, while nobody else changes the objects or the proxy values: the
key is reconciled any number of times, with any deployer, and a reconcile may stay asleep for good. -/
inductive Later (d : Deployer δ → Dispatcher (Shared δ) (Managed Spec Packages))
    (deleted : DeletionHook δ) (K : ObjectKey) (s₀ : Shared δ) : Shared δ → Prop
  | start : Later d deleted K s₀ s₀
  | others {s s' : Shared δ} : Later d deleted K s₀ s → Quiet s.cluster s'.cluster →
      Later d deleted K s₀ s'
  | reconciled {s : Shared δ} {c : Run (Shared δ) (Except Fault Bool)} (D : Deployer δ) :
      Later d deleted K s₀ s →
      Run.Leads (fun s s' => Quiet s.cluster s'.cluster) ((reconcile (d D) deleted K).run s) c →
      Later d deleted K s₀ c.state

/-- Whether the resource under a key has come to rest in `Succeeded`: from now on every further
reconcile ends at once, changes nothing at all, and has no use for a deployer. -/
def Rests (d : Deployer δ → Dispatcher (Shared δ) (Managed Spec Packages))
    (deleted : DeletionHook δ) (K : ObjectKey) (s : Shared δ) : Prop :=
  (∃ r : Managed Spec Packages, objectAt K s = some r.toManifest ∧
      r.phase.name = .text Phase.succeeded.text) ∧
    ∀ t, Later d deleted K s t →
      ∀ D, (reconcile (d D) deleted K).run t = .finished t (.ok false)

/-- Whether two reconciles of a key come to their ends and bring its resource to rest. -/
def Converges (d : Deployer δ → Dispatcher (Shared δ) (Managed Spec Packages)) (D : Deployer δ)
    (deleted : DeletionHook δ) (K : ObjectKey) (s : Shared δ) : Prop :=
  ((reconcile (d D) deleted K).run s).Ends Calm fun s₁ x₁ => x₁ = .ok false ∧
    ∀ s₂ : Shared δ, Quiet s₁.cluster s₂.cluster →
      ((reconcile (d D) deleted K).run s₂).Ends Calm fun s₃ x₂ =>
        x₂ = .ok false ∧ Rests d deleted K s₃

section

variable [ManagedContent Spec] {S : Site} {K : ObjectKey} {deleted : DeletionHook δ}

/-- A state in which the check passes stays one. -/
theorem Converged.later (hkit : Kit d problem? site wanted) (h : Converged site wanted K S s)
    (hl : Later d deleted K s t) : Converged site wanted K S t := by
  induction hl with
  | start => exact h
  | others _ hq ih => exact ih.quiet hq
  | reconciled D _ hrun ih =>
    rw [ih.run_eq hkit] at hrun
    rw [Run.leads_finished hrun]
    exact ih

/-- Once the check passes, the resource has come to rest. -/
theorem Converged.rests (hkit : Kit d problem? site wanted) (h : Converged site wanted K S s) :
    Rests d deleted K s := by
  obtain ⟨r, -, -, hp, hat⟩ := h.stands
  exact ⟨⟨r, hat, hp⟩, fun t hl D => (h.later hkit hl).run_eq hkit D⟩

/-- Take a deployer that provides the registry resources of a valid resource, which is in `Initial`,
`Configuring` or `Succeeded`, and no deadline. Where no call fails, every object stands under its own
key and the variables of every deployment are named apart, two reconciles bring the resource to rest
in `Succeeded`, provided that comparing the variables of its deployment can tell that they are in
order. -/
theorem converges (hkit : Kit d problem? site wanted) (hD : Provides D (site r))
    (hs : Stocked s.cluster) (htell : Tellable s.cluster.proxy (envAt (site r).workload s.cluster))
    (hat : objectAt r.key s = some r.toManifest) (hvalid : problem? r = .ok none)
    (hphase : r.phase.name = .text Phase.initial.text ∨
      r.phase.name = .text Phase.configuring.text ∨ r.phase.name = .text Phase.succeeded.text) :
    Converges d D deleted r.key s := by
  have hprepared : Prepared (site r) s.cluster := ⟨hs, htell⟩
  -- From `Configuring` on one more reconcile is enough, and the second one may find nothing to do.
  have finishes : ∀ s₂ : Shared δ, Prepared (site r) s₂.cluster →
      Stands site r.key (site r) .configuring s₂ →
      ((reconcile (d D) deleted r.key).run s₂).Ends Calm fun s₃ x => x = .ok false ∧
        Converged site wanted r.key (site r) s₃ :=
    fun s₂ hp hst => ends_of_configuring hkit hD hp hst
  have again : ∀ s₁ : Shared δ, Prepared (site r) s₁.cluster →
      Stands site r.key (site r) .configuring s₁ → ∀ s₂ : Shared δ, Quiet s₁.cluster s₂.cluster →
      ((reconcile (d D) deleted r.key).run s₂).Ends Calm fun s₃ x =>
        x = .ok false ∧ Rests d deleted r.key s₃ := by
    intro s₁ hp hst s₂ hq
    refine (finishes s₂ (hp.quiet hq) (hst.quiet hq)).mono ?_
    rintro s₃ x ⟨hx, hconverged⟩
    exact ⟨hx, hconverged.rests hkit⟩
  have rests : ∀ s₁ : Shared δ, Converged site wanted r.key (site r) s₁ → ∀ s₂ : Shared δ,
      Quiet s₁.cluster s₂.cluster →
      ((reconcile (d D) deleted r.key).run s₂).Ends Calm fun s₃ x =>
        x = .ok false ∧ Rests d deleted r.key s₃ := by
    intro s₁ hconverged s₂ hq
    rw [(hconverged.quiet hq).run_eq hkit D]
    exact ⟨rfl, (hconverged.quiet hq).rests hkit⟩
  rcases hphase with hp | hp | hp
  · refine (ends_of_initial hkit rfl hprepared hat hp hvalid).mono ?_
    rintro s₁ x ⟨hx, hprepared', hstands⟩
    exact ⟨hx, again s₁ hprepared' hstands⟩
  · refine (finishes s hprepared ⟨r, rfl, rfl, hp, hat⟩).mono ?_
    rintro s₁ x ⟨hx, hconverged⟩
    exact ⟨hx, rests s₁ hconverged⟩
  · rcases converged_or_ends_of_succeeded hkit hD hprepared ⟨r, rfl, rfl, hp, hat⟩ with
      hconverged | hends
    · show Run.Ends _ _ _
      rw [hconverged.run_eq hkit D]
      exact ⟨rfl, rests s hconverged⟩
    · refine hends.mono ?_
      rintro s₁ x ⟨hx, hprepared', hstands⟩
      exact ⟨hx, again s₁ hprepared' hstands⟩

end

end

/-! ### A deployer at work -/

/-- The objects of a cluster after the registry resources of a resource have been put in place. -/
def installed (r : CatalogSourceConfig) (c : Cluster Unit) : Table ObjectKey Manifest :=
  let S := catalogSite r
  let registry : Deployment := {
    name := r.name, ns := r.ns
    containers := [{ name := .text "registry", env := c.proxy.manage (envAt S.workload c) }] }
  ((c.store.objects.insert S.catalogSource
    (.child { kind := S.catalogSource.kind, name := S.name, ns := S.target })).insert S.service
    (.child { kind := S.service.kind, name := S.name, ns := S.ns })).insert S.workload
    (.deployment registry)

/-- A deployer that puts the registry resources in place at once and tells of the packages. -/
def installing : Deployer Unit where
  ensure _ r := Activity.step fun c =>
    ({ c with store := { c.store with objects := installed r c } }, (r, .ok ()))
  populate r c := (c, { r with packages := [⟨r.spec.packages, r.spec.source⟩] }, .ok ())

/-- What stands under a key when the registry resources have been put in place. -/
theorem find?_installed (r : CatalogSourceConfig) (c : Cluster Unit) (key : ObjectKey) :
    (∃ m, (installed r c).find? key = some m ∧ m.identity? = some key ∧
        key ∈ (catalogSite r).children) ∨
      (installed r c).find? key = c.store.objects.find? key ∧
        key ∉ (catalogSite r).children := by
  unfold installed
  rw [Table.find?_insert, Table.find?_insert, Table.find?_insert]
  simp only [Site.children, List.mem_cons, List.not_mem_nil, or_false]
  by_cases hw : (catalogSite r).workload = key
  · subst hw
    exact .inl ⟨_, if_pos rfl, rfl, .inr (.inl rfl)⟩
  · rw [if_neg hw]
    by_cases hv : (catalogSite r).service = key
    · subst hv
      exact .inl ⟨_, if_pos rfl, rfl, .inr (.inr rfl)⟩
    · rw [if_neg hv]
      by_cases hc : (catalogSite r).catalogSource = key
      · subst hc
        exact .inl ⟨_, if_pos rfl, rfl, .inl rfl⟩
      · rw [if_neg hc]
        refine .inr ⟨rfl, ?_⟩
        rintro (rfl | rfl | rfl)
        · exact hc rfl
        · exact hw rfl
        · exact hv rfl

/-- Where the registry resources can be looked up, they are provided. -/
theorem provides_installing {S : Site} (hu : ∀ key ∈ S.children, key.fault? = none) :
    Provides installing S where
  ensure trace r c hr hs := by
    subst hr
    have hthere : ∀ key ∈ (catalogSite r).children, (installed r c).contains key = true := by
      intro key hkey
      rcases find?_installed r c key with ⟨m, hm, -⟩ | ⟨-, hnot⟩
      · rw [Table.contains, hm]
        rfl
      · exact absurd hkey hnot
    refine ⟨?_, rfl, rfl⟩
    exact {
      clear := hs.clear
      filed := fun key m hm => by
        -- What is stored under a key has been put there or was there before.
        change (installed r c).find? key = some m at hm
        rcases find?_installed r c key with ⟨m', hm', hid, hkey⟩ | ⟨hsame, -⟩
        · rw [hm] at hm'
          cases hm'
          exact Store.keyOf_eq_ok_iff.mpr ⟨hid, hu key hkey⟩
        · exact hs.filed key m (hsame.symm.trans hm)
      config := rfl
      available := rfl
      managed := fun key hm => by
        rcases find?_installed r c key with ⟨-, -, -, hkey⟩ | ⟨hsame, -⟩
        · exact absurd hm ((catalogSite r).not_isManaged key hkey)
        · exact hsame
      catalogSource := hthere _ List.mem_cons_self
      service := hthere _ (List.mem_cons_of_mem _ (List.mem_cons_of_mem _ List.mem_cons_self))
      deployment := ⟨_, Table.find?_insert_self _ _ _, rfl⟩ }
  populate r c := ⟨_, (), rfl⟩

/-- A catalog source config in a phase. -/
def phased (p : Phase) : CatalogSourceConfig where
  name := .text "c"
  ns := .text "n"
  spec := { targetNamespace := .text "t", packages := .text "p" }
  phase := { name := .text p.text }
  packages := []

/-- The shared state over a cluster with proxy values, the resource in a phase and its deployment with
an environment. -/
def shelf (p : Phase) (env : List EnvVar) (config : ProxyConfig) : Shared Unit :=
  let registry : Deployment := {
    name := .text "c", ns := .text "n", containers := [{ name := .text "r", env := env }] }
  let objects := (Table.empty.insert (phased p).key (phased p).toManifest).insert
    (catalogSite (phased p)).workload (.deployment registry)
  { cluster := {
      store := { objects }
      proxy := { config }
      surroundings := () } }

/-- The resource is there. -/
theorem objectAt_shelf (p : Phase) (env : List EnvVar) (config : ProxyConfig) :
    objectAt (phased p).key (shelf p env config) = some (phased p).toManifest := by
  have hne : (catalogSite (phased p)).workload ≠ (phased p).key := by
    intro heq
    exact absurd (Value.text.inj (ObjectKey.mk.inj heq).1) (by decide)
  unfold shelf objectAt
  rw [Table.find?_insert, if_neg hne, Table.find?_insert_self]

/-- The store of the shelf is as the operator wants to find it. -/
theorem stocked_shelf (p : Phase) {env : List EnvVar} (henv : Distinct env) (config : ProxyConfig) :
    Stocked (shelf p env config).cluster where
  clear := rfl
  filed key m hm := by
    unfold shelf at hm
    rw [Table.find?_insert, Table.find?_insert] at hm
    -- A key is that of the deployment or of the resource, and nothing else is there.
    split at hm
    · next heq =>
      cases hm
      subst heq
      rfl
    · split at hm
      · next heq =>
        cases hm
        subst heq
        rfl
      · cases hm
  deployments key m hkind hm := by
    unfold shelf at hm
    rw [Table.find?_insert, Table.find?_insert] at hm
    split at hm
    · cases hm
      exact ⟨_, rfl, henv⟩
    · split at hm
      · next heq =>
        subst heq
        exact absurd (Value.text.inj hkind) (by decide)
      · cases hm

/-- A configured resource whose deployment has drifted comes to rest: it is reset by the first
reconcile and configured by the second one. -/
theorem converges_drifted :
    let env : List EnvVar :=
      [⟨.text "HTTP_PROXY", .text "old"⟩, ⟨.text "A", .text "1"⟩]
    let s := shelf .succeeded env { http := .text "x" }
    Provides installing (catalogSite (phased .succeeded)) ∧ Stocked s.cluster ∧
      drift? [] (catalogSite (phased .succeeded)).workload s.cluster = .ok true ∧
      Converges (fun D => Catalog.dispatcher D none) installing Controller.forgetCopy
        (phased .succeeded).key s := by
  intro env s
  have hD : Provides installing (catalogSite (phased .succeeded)) :=
    provides_installing (by decide +kernel)
  have hs : Stocked s.cluster := stocked_shelf _ (by unfold Distinct; decide +kernel) _
  have htell : Tellable s.cluster.proxy
      (envAt (catalogSite (phased .succeeded)).workload s.cluster) := by
    intro _
    decide +kernel
  refine ⟨hD, hs, by decide +kernel, ?_⟩
  exact converges .catalog hD hs htell (objectAt_shelf _ _ _) (by decide +kernel) (.inr (.inr rfl))

/-- Variables and proxy values of which comparing cannot tell that they are in order: a name that
cannot be looked up, and a double that is told apart from itself, be it the value of a variable or of
a proxy. -/
def untellable : List (List EnvVar × ProxyConfig) :=
  [([⟨.list [.text "A"], .text "1"⟩], {}), ([⟨.text "A", .float .nan⟩], {}),
    ([], { http := .float .nan })]

/-- One more reconcile of the resource on the shelf. -/
def reconciled (s : Shared Unit) : Run (Shared Unit) (Except Fault Bool) :=
  (reconcile (Catalog.dispatcher installing none) Controller.forgetCopy
    (phased .configuring).key).run s

/-- With any of these two reconciles are not enough: the second one fails, or resets what the first
one has configured. -/
theorem not_converges_of_untellable : ∀ x ∈ untellable,
    Provides installing (catalogSite (phased .configuring)) ∧
      Stocked (shelf .configuring x.1 x.2).cluster ∧
      objectAt (phased .configuring).key (shelf .configuring x.1 x.2) =
        some (phased .configuring).toManifest ∧
      (phased .configuring).problem? = .ok none ∧
      ¬ Converges (fun D => Catalog.dispatcher D none) installing Controller.forgetCopy
        (phased .configuring).key (shelf .configuring x.1 x.2) := by
  -- Both reconciles are computed for each of the states in turn.
  have hdistinct : ∀ x ∈ untellable, Distinct x.1 := by
    unfold Distinct
    decide +kernel
  have hfirst : ∀ x ∈ untellable,
      (reconciled (shelf .configuring x.1 x.2)).result? = some (.ok false) := by decide +kernel
  have hsecond : ∀ x ∈ untellable,
      let s := (reconciled (reconciled (shelf .configuring x.1 x.2)).state).state
      (reconciled (reconciled (shelf .configuring x.1 x.2)).state).result? = some (.error
          (Fault.notAKey (.list [.text "A"]))) ∨
        (reconciled (reconciled (shelf .configuring x.1 x.2)).state).result? = some (.ok false) ∧
          ((objectAt (phased .configuring).key s).bind fun m =>
            (ManagedKind.ofManifest? m : Option CatalogSourceConfig).map (·.phase.name)) =
            some (.text Phase.configuring.text) := by decide +kernel
  intro x hx
  refine ⟨provides_installing (by decide +kernel), stocked_shelf _ (hdistinct x hx) _,
    objectAt_shelf _ _ _, by decide +kernel, fun hconv => ?_⟩
  -- If the resource came to rest, the second reconcile could neither fail nor reset it.
  obtain ⟨-, hagain⟩ := hconv.post_of_result? (hfirst x hx)
  have hends := hagain _ (.refl _)
  rcases hsecond x hx with hfault | ⟨hok, hreset⟩
  · obtain ⟨hx', -⟩ := hends.post_of_result? hfault
    cases hx'
  · obtain ⟨-, ⟨r, hat, hp⟩, -⟩ := hends.post_of_result? hok
    unfold reconciled at hreset
    rw [hat, Option.bind_some, Managed.ofManifest?_toManifest, Option.map_some, hp] at hreset
    exact absurd (Value.text.inj (Option.some.inj hreset)) (by decide)

/-- So it is with a variable whose name is a list. -/
theorem not_converges :
    Provides installing (catalogSite (phased .configuring)) ∧
      Stocked (shelf .configuring [⟨.list [.text "A"], .text "1"⟩] {}).cluster ∧
      objectAt (phased .configuring).key (shelf .configuring [⟨.list [.text "A"], .text "1"⟩] {}) =
        some (phased .configuring).toManifest ∧
      (phased .configuring).problem? = .ok none ∧
      ¬ Converges (fun D => Catalog.dispatcher D none) installing Controller.forgetCopy
        (phased .configuring).key (shelf .configuring [⟨.list [.text "A"], .text "1"⟩] {}) :=
  not_converges_of_untellable ([⟨.list [.text "A"], .text "1"⟩], {}) List.mem_cons_self

end CatalogOperator.Proofs.Reconcile
