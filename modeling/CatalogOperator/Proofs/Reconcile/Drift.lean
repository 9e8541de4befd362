import CatalogOperator.Catalog.Reconcilers
import CatalogOperator.Proofs.Proxy.Settling
import CatalogOperator.Proofs.Store.Changes

/-!
# `CatalogOperator.Proofs.Reconcile.Drift`: what the check of a configured resource goes by

A configured resource has drifted if one of the objects it wants is missing, or if its deployment has
proxy variables that are out of date. The check goes by the objects of the store and by the proxy
values only, and where no call fails it changes nothing.

* `Site`: where the registry resources of a managed resource are.
* `drift?`: what the check says. `runOn_workloadIsStale` and `runOn_needsReset` say that the checks of
  the two managed kinds say this and leave the cluster as it is.
* `Quiet`: whether nothing has changed that the check goes by. `drift?_congr` says that the check says
  the same then.
* `Tellable`: whether comparing variables can tell that they are as they should be.
  `deploymentIsStale?_manage` says that they are once they have been put in order.
-/

set_option autoImplicit false

namespace CatalogOperator.Proofs.Reconcile

open CatalogOperator.Proofs.Proxy (Distinct Sparse Agreeing isStale_manage_iff fault?_eq_none_iff
  others_manage)

variable {δ : Type}

/-! ### Sites -/

/-- Where the registry resources of a managed resource are: the catalog source is in a namespace of
its own, the deployment and the service are beside the resource. All of them have its name. -/
structure Site where
  target : Value
  ns : Value
  name : Value

namespace Site

variable (S : Site)

def catalogSource : ObjectKey :=
  ⟨.text Kind.catalogSource, S.target, S.name⟩

def workload : ObjectKey :=
  ⟨.text Kind.deployment, S.ns, S.name⟩

def service : ObjectKey :=
  ⟨.text Kind.service, S.ns, S.name⟩

/-- The registry resources, in the order in which they are looked for. -/
def children : List ObjectKey :=
  [S.catalogSource, S.workload, S.service]

end Site

/-- The environment of the deployment under a key, empty if there is none. -/
def envAt (key : ObjectKey) (c : Cluster δ) : List EnvVar :=
  ((Cluster.deploymentOf (c.store.objects.find? key)).map (·.env)).getD []

/-! ### What has not changed -/

/-- Whether nothing has changed that a check goes by: the objects of the store, whether calls fail,
and the proxy values. -/
structure Quiet (c c' : Cluster δ) : Prop where
  objects : c'.store.objects = c.store.objects
  outages : c'.store.outages = c.store.outages
  config : c'.proxy.config = c.proxy.config
  available : c'.proxy.available = c.proxy.available

/-- Whether, besides, the surroundings that a deployer works on are the same. -/
structure Still (c c' : Cluster δ) : Prop extends Quiet c c' where
  surroundings : c'.surroundings = c.surroundings

namespace Quiet

variable {c c' c'' : Cluster δ}

/-- A cluster that stays as it is has not changed. -/
theorem refl (c : Cluster δ) : Quiet c c :=
  ⟨rfl, rfl, rfl, rfl⟩

/-- What has not changed twice has not changed at all. -/
theorem trans (h : Quiet c c') (h' : Quiet c' c'') : Quiet c c'' :=
  ⟨h'.objects.trans h.objects, h'.outages.trans h.outages, h'.config.trans h.config,
    h'.available.trans h.available⟩

/-- The environment of a deployment is the one it was. -/
theorem envAt_eq (h : Quiet c c') (key : ObjectKey) : envAt key c' = envAt key c := by
  unfold envAt
  rw [h.objects]

/-- The proxy variables are those they were. -/
theorem vars_eq (h : Quiet c c') : c'.proxy.vars = c.proxy.vars := by
  unfold ProxyStore.vars
  rw [h.config]

end Quiet

/-- A cluster that stays as it is stands still. -/
theorem Still.refl (c : Cluster δ) : Still c c :=
  ⟨.refl c, rfl⟩

/-! ### What the check says -/

/-- What the check of a configured resource says: whether an object it wants is missing or its
deployment has to be updated. -/
def drift? (wanted : List ObjectKey) (workload : ObjectKey) (c : Cluster δ) : Except Fault Bool :=
  if wanted.any fun key => !c.store.objects.contains key then .ok true
  else c.proxy.deploymentIsStale? (Cluster.deploymentOf (c.store.objects.find? workload))

/-- Proxy values that are the same and as available make the same deployments out of date. -/
theorem deploymentIsStale?_congr {p p' : ProxyStore} (hc : p'.config = p.config)
    (ha : p'.available = p.available) (d : Option Deployment) :
    p'.deploymentIsStale? d = p.deploymentIsStale? d := by
  have hvars : p'.vars = p.vars := by
    unfold ProxyStore.vars
    rw [hc]
  have hstale : ∀ env, p'.isStale env = p.isStale env := by
    intro env
    unfold ProxyStore.isStale ProxyStore.manage
    rw [hvars]
  unfold ProxyStore.deploymentIsStale?
  simp only [ha, hstale]

/-- The check says the same as long as nothing changes that it goes by. -/
theorem drift?_congr {c c' : Cluster δ} (h : Quiet c c') (wanted : List ObjectKey)
    (workload : ObjectKey) : drift? wanted workload c' = drift? wanted workload c := by
  unfold drift?
  rw [h.objects, deploymentIsStale?_congr h.config h.available]

/-- Whether a check can read all it has to: no call fails, the keys can be looked up, and what stands
under the key of the deployment is one. -/
structure Legible (wanted : List ObjectKey) (workload : ObjectKey) (c : Cluster δ) : Prop where
  clear : c.store.outages = []
  usable : ∀ key ∈ wanted, key.fault? = none
  located : workload.fault? = none
  deployment : ∀ m, c.store.objects.find? workload = some m → ∃ d, m = .deployment d

/-- What the check can tell stays so as long as nothing changes that it goes by. -/
theorem Legible.quiet {wanted : List ObjectKey} {workload : ObjectKey} {c c' : Cluster δ}
    (h : Legible wanted workload c) (hq : Quiet c c') : Legible wanted workload c' where
  clear := hq.outages.trans h.clear
  usable := h.usable
  located := h.located
  deployment m hm := h.deployment m (by rwa [hq.objects] at hm)

/-- Without outages, a read under a usable key tells what stands there, provided it is as
expected. -/
theorem get_of_admits {ι : Type} {s : Store ι} {key : ObjectKey} {e : Expected}
    (ho : s.outages = []) (hk : key.fault? = none)
    (he : ∀ m, s.objects.find? key = some m → e.admits m = true) :
    s.get key e = (s, .ok (s.objects.find? key)) := by
  cases hm : s.objects.find? key with
  | some m => exact Store.get_of_clear ho hk hm (he m hm)
  | none =>
    unfold Store.get
    rw [Store.meet_of_clear ho, hk]
    dsimp only
    rw [hm]

/-- Without outages, looking for missing objects under usable keys finds out whether there are
any. -/
theorem anyMissing_of_clear {ι : Type} {s : Store ι} (ho : s.outages = []) {keys : List ObjectKey}
    (hk : ∀ key ∈ keys, key.fault? = none) :
    s.anyMissing keys = (s, .ok (keys.any fun key => !s.objects.contains key)) := by
  induction keys with
  | nil => rfl
  | cons key rest ih =>
    obtain ⟨hkey, hrest⟩ := List.forall_mem_cons.mp hk
    unfold Store.anyMissing
    rw [get_of_admits ho hkey fun _ _ => rfl]
    cases hm : s.objects.find? key with
    | none => simp [Table.contains, hm]
    | some m =>
      dsimp only
      rw [ih hrest]
      simp [Table.contains, hm]

section

variable {wanted : List ObjectKey} {c : Cluster δ}

/-- Checking the deployment of a resource tells whether it is out of date and changes nothing. -/
theorem runOn_workloadIsStale {ns name : Value}
    (h : Legible wanted ⟨.text Kind.deployment, ns, name⟩ c) :
    Call.runOn (Cluster.workloadIsStale ns name) c =
      (c, c.proxy.deploymentIsStale?
        (Cluster.deploymentOf (c.store.objects.find? ⟨.text Kind.deployment, ns, name⟩))) := by
  have hget : Call.runOn (Cluster.get ⟨.text Kind.deployment, ns, name⟩ (.only "Deployment")) c =
      (c, .ok (c.store.objects.find? ⟨.text Kind.deployment, ns, name⟩)) := by
    rw [Cluster.runOn_get, get_of_admits h.clear h.located]
    intro m hm
    obtain ⟨d, rfl⟩ := h.deployment m hm
    rfl
  have hread : Call.runOn (MonadState.get : Call (Cluster δ) (Cluster δ)) c = (c, .ok c) := rfl
  unfold Cluster.workloadIsStale
  rw [Call.runOn_bind, hread]
  dsimp only
  cases ha : c.proxy.available with
  | true =>
    rw [if_neg (by simp), Call.runOn_bind, hget]
    rfl
  | false =>
    -- Nothing is read: no deployment is out of date in such a cluster.
    rw [if_pos (by simp)]
    unfold ProxyStore.deploymentIsStale?
    rw [ha]
    cases Cluster.deploymentOf (c.store.objects.find? ⟨.text Kind.deployment, ns, name⟩) <;> rfl

/-- Checking a catalog source config tells whether it has drifted and changes nothing. -/
theorem runOn_needsReset {r : CatalogSourceConfig}
    (h : Legible r.children ⟨.text Kind.deployment, r.ns, r.name⟩ c) :
    Call.runOn (Catalog.needsReset r) c =
      (c, drift? r.children ⟨.text Kind.deployment, r.ns, r.name⟩ c) := by
  have hmissing : Call.runOn (Cluster.childMissing r) c =
      (c, .ok (r.children.any fun key => !c.store.objects.contains key)) := by
    unfold Cluster.childMissing
    rw [Cluster.runOn_onStore, anyMissing_of_clear h.clear h.usable]
  unfold Catalog.needsReset drift?
  rw [Call.runOn_bind, hmissing]
  dsimp only
  split
  · rfl
  · exact runOn_workloadIsStale h

end

/-! ### Variables that can be told to be in order -/

/-- Whether comparing the variables of an environment with those in force can tell that they are in
order: their names can be looked up, and no value is the double that is told apart from itself. In a
cluster that does not serve proxy values nothing is compared. -/
def Tellable (p : ProxyStore) (env : List EnvVar) : Prop :=
  p.available = true → ∀ v ∈ p.vars ++ Proxy.others p.vars env,
    v.name.isScalar = true ∧ v.value ≠ .float .nan

variable {p : ProxyStore} {env : List EnvVar}

/-- An environment that can be compared stays so as long as nothing changes that a check goes by. -/
theorem Tellable.quiet {key : ObjectKey} {c c' : Cluster δ}
    (h : Tellable c.proxy (envAt key c)) (hq : Quiet c c') :
    Tellable c'.proxy (envAt key c') := by
  intro ha
  rw [hq.vars_eq, hq.envAt_eq]
  exact h (hq.available.symm.trans ha)

/-- The names of variables that can be told to be in order can be looked up. -/
theorem Tellable.fault?_eq_none (h : Tellable p env) (ha : p.available = true) :
    EnvList.fault? env = none :=
  fault?_eq_none_iff.mpr fun w hw => (h ha w (List.mem_append_right _ hw)).1

/-- Variables that are named apart agree with one another if each agrees with itself. -/
theorem Tellable.agreeing (h : Tellable p env) (ha : p.available = true) (hd : Distinct env) :
    Agreeing ((p.vars.filter fun v => v.value.isTrue) ++ Proxy.others p.vars env) := by
  have hself : ∀ v ∈ p.vars ++ Proxy.others p.vars env, v.value.differs v.value = false := by
    intro v hv
    rw [Value.differs_eq_false]
    exact ⟨(h ha v hv).2, (h ha v hv).2, Value.same_refl _⟩
  have hsub : ∀ v ∈ (p.vars.filter fun v => v.value.isTrue) ++ Proxy.others p.vars env,
      v ∈ p.vars ++ Proxy.others p.vars env := by
    intro v hv
    rcases List.mem_append.mp hv with hv | hv
    · exact List.mem_append_left _ (List.mem_filter.mp hv).1
    · exact List.mem_append_right _ hv
  -- The list is named apart: so are its two parts, and the others are named after no proxy value.
  have hapart : Distinct ((p.vars.filter fun v => v.value.isTrue) ++ Proxy.others p.vars env) := by
    refine List.pairwise_append.mpr ⟨(Proxy.distinct_vars p).filter _, hd.filter _, ?_⟩
    intro v hv w hw
    have hw' := (List.mem_filter.mp hw).2
    rw [List.all_eq_true] at hw'
    have hne := hw' v (List.mem_filter.mp hv).1
    rw [Bool.not_eq_true'] at hne
    rw [Value.same_comm]
    exact hne
  intro v hv w hw hname
  by_cases heq : v = w
  · subst heq
    exact hself v (hsub v hv)
  · have hsymm : Std.Symm fun a b : EnvVar => a.name.same b.name = false :=
      ⟨fun a b hab => (Value.same_comm _ _).trans hab⟩
    have hne := hapart.forall hv hw heq
    rw [hname] at hne
    cases hne

/-- A name that occurs once at most leaves room for one pass. -/
theorem sparse_of_distinct (hd : Distinct env) : Sparse p env := by
  intro v _
  have hone := Proxy.length_named_le_one hd v.name
  split <;> omega

/-- A deployment whose variables can be told to be in order is checked without a fault. -/
theorem exists_deploymentIsStale? {d : Option Deployment}
    (h : Tellable p ((d.map (·.env)).getD [])) : ∃ b, p.deploymentIsStale? d = .ok b := by
  unfold ProxyStore.deploymentIsStale?
  cases d with
  | none => exact ⟨false, rfl⟩
  | some d =>
    cases ha : p.available with
    | false => exact ⟨false, rfl⟩
    | true =>
      have hf : EnvList.fault? d.env = none := h.fault?_eq_none ha
      simp only [Bool.not_true, Bool.false_eq_true, if_false, hf]
      exact ⟨_, rfl⟩

/-- A deployment whose variables were put in order is up to date, provided that they were named apart
before and can be told to be in order. -/
theorem deploymentIsStale?_manage {d : Deployment} (hd : Distinct env) (h : Tellable p env)
    (henv : d.env = p.manage env) : p.deploymentIsStale? (some d) = .ok false := by
  unfold ProxyStore.deploymentIsStale?
  cases ha : p.available with
  | false => rfl
  | true =>
    have hf : EnvList.fault? (p.manage env) = none := by
      rw [fault?_eq_none_iff, others_manage, ← fault?_eq_none_iff]
      exact h.fault?_eq_none ha
    have hs : p.isStale (p.manage env) = false :=
      (isStale_manage_iff (sparse_of_distinct hd)).mpr (h.agreeing ha hd)
    simp only [henv, hf, hs, Bool.not_true, Bool.false_eq_true, if_false]

end CatalogOperator.Proofs.Reconcile
