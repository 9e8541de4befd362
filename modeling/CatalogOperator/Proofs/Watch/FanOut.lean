import CatalogOperator.Proofs.Operator.Routing
import CatalogOperator.Proofs.Proxy.Projection
import Mathlib.Data.List.Nodup

/-!
# `CatalogOperator.Proofs.Watch.FanOut`: a change of the cluster proxy

When the cluster proxy changes, its values are taken over and every owner is brought up. Both read from
the store, and either may fail there. A failure before the values are taken over leaves everything as
it was. After that, one call for each kind of owner follows, and if one of these fails, nobody is
brought up although the values have changed.

* `Flaky`: calls to the store fail with store failures only. `refreshProxy_outcome`,
  `ownersOf_outcome`: what the two steps come to then.
* `NoEffect`, `FansOut`: what a change of the cluster proxy should come to.
* `Halfway`: the values have changed, and then a call fails that lists owners.
* `map_outcome`: all that a change of the cluster proxy can come to.
* `noEffect_or_fansOut_iff`: this is what can go wrong. `not_fansOut_unlisted` is a case of it.
-/

set_option autoImplicit false

namespace CatalogOperator.Proofs.Watch

section

variable {δ : Type} {c c' : Cluster δ} {ns : Option Value} {kinds : List String}

/-! ### Calls that may fail -/

/-- Whether calls to the store fail with store failures only. -/
def Flaky (c : Cluster δ) : Prop :=
  ∀ o ∈ c.store.outages, o.fault.isStoreFailure = true

/-- A call fails with nothing but the fault of an outage, and it adds no outages. -/
theorem isStoreFailure_meet {call : StoreCall} {kind : Value} {os : List Outage}
    (h : ∀ o ∈ os, o.fault.isStoreFailure = true) :
    (∀ o ∈ (Outage.meet call kind os).1, o.fault.isStoreFailure = true) ∧
      ∀ f, (Outage.meet call kind os).2 = some f → f.isStoreFailure = true := by
  induction os with
  | nil => exact ⟨h, fun f hf => nomatch hf⟩
  | cons o rest ih =>
    obtain ⟨ho, hrest⟩ := List.forall_mem_cons.mp h
    obtain ⟨hleft, hstopped⟩ := ih hrest
    unfold Outage.meet
    split
    · split
      · exact ⟨List.forall_mem_cons.mpr ⟨ho, hrest⟩, fun f hf => Option.some.inj hf ▸ ho⟩
      · exact ⟨List.forall_mem_cons.mpr ⟨ho, hleft⟩, hstopped⟩
    · exact ⟨List.forall_mem_cons.mpr ⟨ho, hleft⟩, hstopped⟩

/-- The cluster after a call that may have met an outage. -/
def met (c : Cluster δ) (call : StoreCall) (kind : Value) : Cluster δ :=
  { c with store := (c.store.meet call kind).1 }

/-- After a call the store still fails with store failures only. -/
theorem Flaky.met (h : Flaky c) (call : StoreCall) (kind : Value) : Flaky (met c call kind) :=
  (isStoreFailure_meet h).1

/-! ### Taking the values over -/

/-- What the object that holds the proxy values of the cluster says, which is nothing without one. -/
def statusOf (c : Cluster δ) : ProxyConfig :=
  Cluster.proxyConfigOf (c.store.objects.find? Cluster.proxyKey)

/-- Reading the object that holds the proxy values. -/
def fetch (c : Cluster δ) : Except Fault (Option Manifest) :=
  (c.store.get Cluster.proxyKey (.only "ClusterProxy")).2

/-- Whether the object that should hold the proxy values is of another class, and the call that reads it
meets no outage. -/
def Foreign (c : Cluster δ) : Prop :=
  (c.store.meet .get Cluster.proxyKey.kind).2 = none ∧
    ∃ m, c.store.objects.find? Cluster.proxyKey = some m ∧ m.typeName ≠ "ClusterProxy"

/-- This is the one case in which reading fails although the store is at work. -/
theorem foreign_iff (hflaky : Flaky c) :
    Foreign c ↔ ∃ f, fetch c = .error f ∧ f.isStoreFailure = false := by
  have husable : Cluster.proxyKey.fault? = none := by decide
  unfold fetch Foreign Store.get
  dsimp only
  cases hstopped : (c.store.meet .get Cluster.proxyKey.kind).2 with
  | some f => simp [(isStoreFailure_meet hflaky).2 f hstopped]
  | none =>
    rw [husable, Store.objects_meet]
    cases c.store.objects.find? Cluster.proxyKey with
    | none => simp
    | some m =>
      by_cases hclass : m.typeName = "ClusterProxy"
      · simp [Expected.admits, hclass]
      · simp [Expected.admits, hclass, Fault.isStoreFailure]

/-- What taking the proxy values over comes to, if they can be written: it fails before it does
anything, or they are in force already, or they change. -/
inductive Refreshes (c : Cluster δ) : Cluster δ × Except Fault Bool → Prop
  | failed (f : Fault) : fetch c = .error f →
    Refreshes c (met c .get Cluster.proxyKey.kind, .error f)
  | kept (m : Option Manifest) : fetch c = .ok m → c.proxy.config.same (statusOf c) = true →
    Refreshes c (met c .get Cluster.proxyKey.kind, .ok false)
  | changed (m : Option Manifest) (proxy : ProxyStore) : fetch c = .ok m →
    c.proxy.config.same (statusOf c) = false → proxy.config = statusOf c →
    Refreshes c ({ met c .get Cluster.proxyKey.kind with proxy }, .ok true)

/-- Taking the proxy values over fails before it does anything, finds them in force, or changes them.
-/
theorem refreshProxy_outcome (hwrites : (c.proxy.project (statusOf c)).2 = none) :
    Refreshes c (Cluster.refreshProxy.runOn c) := by
  unfold Cluster.refreshProxy
  rw [Call.runOn_bind, Cluster.runOn_get]
  cases hget : c.store.get Cluster.proxyKey (.only "ClusterProxy") with
  | mk s x =>
    have hs : s = (c.store.meet .get Cluster.proxyKey.kind).1 := congrArg Prod.fst hget.symm
    have hfetch : fetch c = x := congrArg Prod.snd hget
    subst hs
    cases x with
    | error f => exact .failed f hfetch
    | ok m =>
      have hm : Cluster.proxyConfigOf m = statusOf c :=
        congrArg Cluster.proxyConfigOf (Store.get_eq_ok hget).symm
      dsimp only
      rw [hm]
      -- The read has succeeded, and what is left is to set the values that it found.
      show Refreshes c ({ met c .get _ with proxy := (c.proxy.set (statusOf c)).1 },
        (c.proxy.set (statusOf c)).2)
      cases hsame : c.proxy.config.same (statusOf c) with
      | true =>
        rw [Proxy.set_of_same hsame]
        exact .kept m hfetch hsame
      | false =>
        let written := (c.proxy.project (statusOf c)).1
        have hset : c.proxy.set (statusOf c) =
            ({ written with config := statusOf c }, .ok true) := by
          unfold ProxyStore.set
          rw [hsame, ← Prod.eta (c.proxy.project (statusOf c)), hwrites]
          rfl
        rw [hset]
        exact .changed m _ hfetch hsame rfl

/-! ### Listing the owners -/

/-- The keys of the objects of a kind in a namespace, in the order of creation. -/
def keysOfKind (ns : Option Value) (c : Cluster δ) (kind : String) : List ObjectKey :=
  (c.store.objects.entries.filter fun e =>
    e.2.kind? = some (.text kind) && Mapper.inNamespace e.2 ns).map (·.1)

/-- Whether a key is that of an owner: an object of one of the kinds, in the namespace. -/
def Owner (kinds : List String) (ns : Option Value) (c : Cluster δ) (k : ObjectKey) : Prop :=
  ∃ kind ∈ kinds, ∃ m, c.store.objects.find? k = some m ∧ m.kind? = some (.text kind) ∧
    Mapper.inNamespace m ns = true

/-- The keys of a kind are those of the objects of that kind in the namespace. -/
theorem mem_keysOfKind {k : ObjectKey} {kind : String} : k ∈ keysOfKind ns c kind ↔
    ∃ m, c.store.objects.find? k = some m ∧ m.kind? = some (.text kind) ∧
      Mapper.inNamespace m ns = true := by
  unfold keysOfKind
  simp only [List.mem_map, List.mem_filter, Bool.and_eq_true, decide_eq_true_eq]
  constructor
  · rintro ⟨e, ⟨he, hkind, hns⟩, rfl⟩
    exact ⟨e.2, Table.mem_entries_iff.mp he, hkind, hns⟩
  · rintro ⟨m, hm, hkind, hns⟩
    exact ⟨(k, m), ⟨Table.mem_entries_iff.mpr hm, hkind, hns⟩, rfl⟩

/-- The keys of all owners, kind after kind. -/
def owners (kinds : List String) (ns : Option Value) (c : Cluster δ) : List ObjectKey :=
  kinds.flatMap (keysOfKind ns c)

/-- The keys are those of the owners. -/
theorem mem_owners {k : ObjectKey} : k ∈ owners kinds ns c ↔ Owner kinds ns c k := by
  simp [owners, Owner, mem_keysOfKind]

/-- No key is listed twice, for an object is of one kind only. -/
theorem nodup_owners (hkinds : kinds.Nodup) : (owners kinds ns c).Nodup := by
  refine List.nodup_flatMap.mpr ⟨fun kind _ => ?_, hkinds.imp fun {kind kind'} hne => ?_⟩
  · exact c.store.objects.nodup.sublist (List.filter_sublist.map _)
  · intro k hk hk'
    obtain ⟨m, hm, hkind, -⟩ := mem_keysOfKind.mp hk
    obtain ⟨m', hm', hkind', -⟩ := mem_keysOfKind.mp hk'
    cases hm.symm.trans hm'
    cases hkind.symm.trans hkind'
    exact hne rfl

/-- Objects under their own keys have these keys. -/
theorem keysOf_map_snd {es : List (ObjectKey × Manifest)} (h : ∀ e ∈ es, e.2.key? = .ok e.1) :
    Mapper.keysOf (es.map (·.2)) = .ok (es.map (·.1)) := by
  unfold Mapper.keysOf
  induction es with
  | nil => rfl
  | cons e rest ih =>
    obtain ⟨he, hrest⟩ := List.forall_mem_cons.mp h
    rw [List.map_cons, List.mapM_cons, he, ih hrest]
    rfl

/-- The store lists the objects of a kind in its order. -/
theorem keysOf_listed (hfiled : c.store.Filed) (ns : Option Value) (kind : String) :
    Mapper.keysOf ((c.store.objects.values.filter fun m =>
      Value.text kind == .null || (m.kind?.getD .null).same (.text kind)).filter fun m =>
        Mapper.inNamespace m ns) = .ok (keysOfKind ns c kind) := by
  have hkind : ∀ m : Manifest, (Value.text kind == .null || (m.kind?.getD .null).same (.text kind)) =
      decide (m.kind? = some (.text kind)) := by
    intro m
    rw [Bool.eq_iff_iff, decide_eq_true_eq]
    cases m.kind? with
    | none => simp [Value.same_text_iff]
    | some v => simp [Value.same_text_iff]
  -- Listing and restricting to the namespace is one filter of the entries.
  have hlisted : (c.store.objects.values.filter fun m =>
      Value.text kind == .null || (m.kind?.getD .null).same (.text kind)).filter (fun m =>
        Mapper.inNamespace m ns) = (c.store.objects.entries.filter fun e =>
          e.2.kind? = some (.text kind) && Mapper.inNamespace e.2 ns).map (·.2) := by
    simp only [hkind, Table.values, List.filter_map, List.filter_filter, Bool.and_comm]
    rfl
  rw [hlisted]
  refine keysOf_map_snd fun e he => ?_
  have hown := hfiled e.1 e.2 (Table.mem_entries_iff.mp (List.mem_filter.mp he).1)
  unfold Manifest.key?
  rw [(Store.keyOf_eq_ok_iff.mp hown).1]

/-- A call that lists the objects of a kind, whether or not it meets an outage. -/
theorem runOn_list (kind : String) : (Cluster.list (.text kind)).runOn c =
    (met c .list (.text kind), match (c.store.meet .list (.text kind)).2 with
      | some f => .error f
      | none => .ok (c.store.objects.values.filter fun m =>
        Value.text kind == .null || (m.kind?.getD .null).same (.text kind))) :=
  rfl

/-- The owners of one kind come before those of the others, unless the call that lists them fails. -/
theorem runOn_ownersOf_cons (hfiled : c.store.Filed) (ns : Option Value) (kind : String)
    (rest : List String) :
    (Mapper.ownersOf ns (kind :: rest)).runOn c =
      match (c.store.meet .list (.text kind)).2 with
      | some f => (met c .list (.text kind), .error f)
      | none =>
        let out := (Mapper.ownersOf ns rest).runOn (met c .list (.text kind))
        (out.1, out.2.map fun more => keysOfKind ns c kind ++ more) := by
  have hkeys := keysOf_listed hfiled ns kind
  rw [Mapper.ownersOf, Call.runOn_bind, runOn_list]
  cases (c.store.meet .list (.text kind)).2 with
  | some f => rfl
  | none =>
    dsimp only
    rw [hkeys, Call.runOn_bind]
    show (Mapper.ownersOf ns rest >>= fun more => pure (keysOfKind ns c kind ++ more)).runOn
      (met c .list (.text kind)) = _
    rw [Call.runOn_bind]
    cases (Mapper.ownersOf ns rest).runOn (met c .list (.text kind)) with
    | mk c' x => cases x <;> rfl

/-- What listing the owners comes to: either a call fails, or all of them are listed. -/
inductive Lists (kinds : List String) (ns : Option Value) (c : Cluster δ) :
    Cluster δ × Except Fault (List ObjectKey) → Prop
  | failed (c' : Cluster δ) (f : Fault) : c'.proxy = c.proxy → f.isStoreFailure = true →
    Lists kinds ns c (c', .error f)
  | complete (c' : Cluster δ) : c'.proxy = c.proxy → Lists kinds ns c (c', .ok (owners kinds ns c))

/-- Either a call fails, or all owners are listed. -/
theorem ownersOf_outcome (kinds : List String) (ns : Option Value) (hfiled : c.store.Filed)
    (hflaky : Flaky c) : Lists kinds ns c ((Mapper.ownersOf ns kinds).runOn c) := by
  induction kinds generalizing c with
  | nil => exact .complete c rfl
  | cons kind rest ih =>
    -- Listing one kind leaves everything but the outages as it is.
    have hrest : Lists rest ns (met c .list (.text kind)) _ := ih hfiled (hflaky.met _ _)
    rw [runOn_ownersOf_cons hfiled]
    split
    · next f hstopped => exact .failed _ f rfl ((isStoreFailure_meet hflaky).2 f hstopped)
    · generalize (Mapper.ownersOf ns rest).runOn (met c .list (.text kind)) = out at hrest
      cases hrest with
      | failed c' f hproxy hf => exact .failed c' f hproxy hf
      | complete c' hproxy => exact .complete c' hproxy

/-! ### The mapper of the cluster proxy -/

/-- Whether handling a change of the cluster proxy has no effect: the values in force stay as they are,
and nobody is brought up. -/
structure NoEffect (c : Cluster δ) (r : Cluster δ × Except Fault (List ObjectKey)) : Prop where
  config : r.1.proxy.config = c.proxy.config
  keys : r.2 = .ok []

/-- Whether handling a change of the cluster proxy takes its values over and brings up every owner,
each once, and nobody else. -/
structure FansOut (kinds : List String) (ns : Option Value) (c : Cluster δ)
    (r : Cluster δ × Except Fault (List ObjectKey)) : Prop where
  config : r.1.proxy.config.same (statusOf c) = true
  keys : ∃ ks, r.2 = .ok ks ∧ ks.Nodup ∧ ∀ k, k ∈ ks ↔ Owner kinds ns c k

/-- Whether the values change, and then a call fails that lists the owners, of whom there are some. -/
def Halfway (kinds : List String) (ns : Option Value) (c : Cluster δ) : Prop :=
  (Cluster.refreshProxy.runOn c).2 = .ok true ∧
    (∃ f, ((Mapper.ownersOf ns kinds).runOn (Cluster.refreshProxy.runOn c).1).2 = .error f) ∧
    ∃ k, Owner kinds ns c k

/-- All that handling a change of the cluster proxy can come to, if the values can be written: the object
that holds them is of another class; or some call fails while the values are as they were; or the values
change, and then a call fails; or no call fails. -/
inductive Handles (kinds : List String) (ns : Option Value) (c : Cluster δ) :
    Cluster δ × Except Fault (List ObjectKey) → Prop
  | refused (c' : Cluster δ) (f : Fault) : Foreign c → Handles kinds ns c (c', .error f)
  | withheld (c' : Cluster δ) : ¬ Foreign c → ¬ Halfway kinds ns c →
    c'.proxy.config = c.proxy.config → Handles kinds ns c (c', .ok [])
  | stranded (c' : Cluster δ) : ¬ Foreign c →
    (Halfway kinds ns c ↔ ∃ k, Owner kinds ns c k) →
    c.proxy.config.same (statusOf c) = false → c'.proxy.config = statusOf c →
    Handles kinds ns c (c', .ok [])
  | complete (c' : Cluster δ) : ¬ Foreign c → ¬ Halfway kinds ns c →
    c'.proxy.config.same (statusOf c) = true → Handles kinds ns c (c', .ok (owners kinds ns c))

/-- There is nothing else that handling a change of the cluster proxy can come to. -/
theorem map_outcome (kinds : List String) (ns : Option Value) (hfiled : c.store.Filed)
    (hflaky : Flaky c) (hwrites : (c.proxy.project (statusOf c)).2 = none) (e : WatchEvent) :
    Handles kinds ns c (((Mapper.clusterProxy kinds ns).map e).runOn c) := by
  have hfetched := refreshProxy_outcome hwrites
  show Handles kinds ns c
    ((Mapper.orOnStoreFailure (Mapper.refreshAndList kinds ns) []).runOn c)
  unfold Mapper.refreshAndList
  rw [Operation.runOn_orOnStoreFailure, Call.runOn_bind]
  have hhalfway : Halfway kinds ns c ↔ (Cluster.refreshProxy.runOn c).2 = .ok true ∧
      (∃ f, ((Mapper.ownersOf ns kinds).runOn (Cluster.refreshProxy.runOn c).1).2 = .error f) ∧
        ∃ k, Owner kinds ns c k := Iff.rfl
  generalize Cluster.refreshProxy.runOn c = fetched at hfetched hhalfway ⊢
  cases hfetched with
  | failed f hfetch =>
    -- Nothing has been done yet, so only the kind of failure counts.
    dsimp only
    have hforeign : Foreign c ↔ f.isStoreFailure = false := by simp [foreign_iff hflaky, hfetch]
    cases hf : f.isStoreFailure with
    | true =>
      refine .withheld _ ?_ ?_ rfl
      · simp [hforeign, hf]
      · simp [hhalfway]
    | false => exact .refused _ f (hforeign.mpr hf)
  | kept m hfetch hsame =>
    have hforeign : ¬ Foreign c := by simp [foreign_iff hflaky, hfetch]
    have hnot : ¬ Halfway kinds ns c := by simp [hhalfway]
    have hlists := ownersOf_outcome kinds ns (c := met c .get Cluster.proxyKey.kind) hfiled
      (hflaky.met _ _)
    dsimp only
    generalize (Mapper.ownersOf ns kinds).runOn (met c .get Cluster.proxyKey.kind) = out at hlists
    cases hlists with
    | failed c' f hproxy hf =>
      dsimp only
      rw [if_pos hf]
      exact .withheld c' hforeign hnot (congrArg _ hproxy)
    | complete c' hproxy =>
      have hconfig : c'.proxy.config = c.proxy.config := congrArg _ hproxy
      exact .complete c' hforeign hnot (hconfig ▸ hsame)
  | changed m proxy hfetch hother hproxy =>
    have hforeign : ¬ Foreign c := by simp [foreign_iff hflaky, hfetch]
    have hlists := ownersOf_outcome kinds ns
      (c := { met c .get Cluster.proxyKey.kind with proxy }) hfiled (hflaky.met _ _)
    dsimp only at hhalfway ⊢
    generalize (Mapper.ownersOf ns kinds).runOn { met c .get Cluster.proxyKey.kind with proxy } = out
      at hlists hhalfway
    cases hlists with
    | failed c' f hproxy' hf =>
      dsimp only
      rw [if_pos hf]
      exact .stranded c' hforeign (by simp [hhalfway]) hother (hproxy' ▸ hproxy)
    | complete c' hproxy' =>
      have hconfig : c'.proxy.config = statusOf c := hproxy' ▸ hproxy
      exact .complete c' hforeign (by simp [hhalfway]) (hconfig ▸ Value.same_refl _)

/-- If the values have changed and nobody is brought up, this is as it should be only if there is nobody
to bring up. -/
theorem noEffect_or_fansOut_of_changed (hother : c.proxy.config.same (statusOf c) = false)
    (hconfig : c'.proxy.config = statusOf c) :
    NoEffect c (c', .ok []) ∨ FansOut kinds ns c (c', .ok []) ↔ ¬ ∃ k, Owner kinds ns c k := by
  constructor
  · rintro (h | h)
    · have hsame : c'.proxy.config = c.proxy.config := h.config
      rw [← hconfig, hsame, ProxyConfig.same, Value.same_refl] at hother
      cases hother
    · rintro ⟨k, hk⟩
      obtain ⟨ks, hks, -, hall⟩ := h.keys
      cases hks
      cases (hall k).mpr hk
  · intro hnone
    refine .inr ⟨hconfig ▸ Value.same_refl _, [], rfl, List.nodup_nil, fun k => ?_⟩
    exact iff_of_false List.not_mem_nil fun hk => hnone ⟨k, hk⟩

/-- A change of the cluster proxy, whatever calls fail: it has no effect or a complete one, unless the
object that holds the values is of another class, or the values change and listing the owners fails. -/
theorem noEffect_or_fansOut_iff (hkinds : kinds.Nodup) (hfiled : c.store.Filed) (hflaky : Flaky c)
    (hwrites : (c.proxy.project (statusOf c)).2 = none) (e : WatchEvent) :
    let r := ((Mapper.clusterProxy kinds ns).map e).runOn c
    NoEffect c r ∨ FansOut kinds ns c r ↔ ¬ Foreign c ∧ ¬ Halfway kinds ns c := by
  intro r
  have hhandles : Handles kinds ns c r := map_outcome kinds ns hfiled hflaky hwrites e
  generalize r = out at hhandles
  -- One case for each of what handling the change can come to.
  cases hhandles with
  | refused c' f hforeign =>
    refine iff_of_false ?_ fun h => h.1 hforeign
    rintro (h | h)
    · cases h.keys
    · obtain ⟨ks, hks, -⟩ := h.keys
      cases hks
  | withheld c' hforeign hnot hconfig =>
    exact iff_of_true (.inl ⟨hconfig, rfl⟩) ⟨hforeign, hnot⟩
  | stranded c' hforeign hhalfway hother hconfig =>
    rw [noEffect_or_fansOut_of_changed hother hconfig, hhalfway]
    exact (and_iff_right hforeign).symm
  | complete c' hforeign hnot hconfig =>
    have hkeys : ∀ k, k ∈ owners kinds ns c ↔ Owner kinds ns c k := fun _ => mem_owners
    exact iff_of_true (.inr ⟨hconfig, _, rfl, nodup_owners hkinds, hkeys⟩) ⟨hforeign, hnot⟩

end

/-! ### A cluster with one owner -/

/-- A change of the cluster proxy from no values to one. -/
def moved : ClusterProxy where
  status := { http := .text "http://proxy:3128" }

/-- The one owner. -/
def lodger : OperatorSource where
  name := .text "s"
  ns := .text "openshift-marketplace"
  spec := { endpoint := .text "e" }
  phase := {}
  packages := .text ""

/-- A cluster that holds both, with outages to come. No proxy values are in force yet. -/
def lodging (outages : List Outage) : Cluster Unit where
  store := {
    objects := Table.ofList
      [(lodger.key, .operatorSource lodger), (Cluster.proxyKey, .proxy moved)]
    outages }
  surroundings := ()

/-- What is made of the change there. -/
def rerouted (outages : List Outage) : Cluster Unit × Except Fault (List ObjectKey) :=
  ((Mapper.clusterProxy [Kind.operatorSource]).map { type := .update, object := .proxy moved }).runOn
    (lodging outages)

/-- Both objects stand under their own keys. -/
theorem filed_lodging (outages : List Outage) : (lodging outages).store.Filed := by
  intro key m hm
  have hmem : (key, m) ∈ [(lodger.key, Manifest.operatorSource lodger),
    (Cluster.proxyKey, Manifest.proxy moved)] := Table.mem_entries_iff.mpr hm
  simp only [List.mem_cons, Prod.mk.injEq, List.not_mem_nil, or_false] at hmem
  rcases hmem with ⟨rfl, rfl⟩ | ⟨rfl, rfl⟩
  · rfl
  · rfl

/-- The source is an owner. -/
theorem owner_lodger (outages : List Outage) :
    Owner [Kind.operatorSource] none (lodging outages) lodger.key :=
  ⟨Kind.operatorSource, List.mem_cons_self, .operatorSource lodger,
    Table.mem_entries_iff.mp List.mem_cons_self, rfl, rfl⟩

/-- As long as no call fails, the owner is brought up. -/
theorem noEffect_or_fansOut_iff_lodging :
    (lodging []).store.Filed ∧ Flaky (lodging []) ∧
      ((lodging []).proxy.project (statusOf (lodging []))).2 = none ∧
      FansOut [Kind.operatorSource] none (lodging []) (rerouted []) := by
  have hflaky : Flaky (lodging []) := fun _ ho => nomatch ho
  have hwrites : ((lodging []).proxy.project (statusOf (lodging []))).2 = none := rfl
  -- The object is of the right class, and listing the owners does not fail.
  have hforeign : ¬ Foreign (lodging []) := by
    rintro ⟨-, m, hm, hclass⟩
    cases hm.symm.trans (show _ = some (Manifest.proxy moved) by decide +kernel)
    exact hclass rfl
  have hhalfway : ¬ Halfway [Kind.operatorSource] none (lodging []) := by
    rintro ⟨-, ⟨f, hf⟩, -⟩
    have hlisted : ((Mapper.ownersOf none [Kind.operatorSource]).runOn
      (Cluster.refreshProxy.runOn (lodging [])).1).2 = .ok [lodger.key] := by decide +kernel
    cases hlisted.symm.trans hf
  have heither : NoEffect (lodging []) (rerouted []) ∨
      FansOut [Kind.operatorSource] none (lodging []) (rerouted []) :=
    (noEffect_or_fansOut_iff (by decide) (filed_lodging []) hflaky hwrites _).mpr
      ⟨hforeign, hhalfway⟩
  refine ⟨filed_lodging [], hflaky, hwrites, heither.resolve_left fun h => ?_⟩
  have hkeys : (rerouted []).2 = .ok [lodger.key] := by decide +kernel
  cases hkeys.symm.trans h.keys

/-- The call that lists operator sources fails once. -/
def unlisted : List Outage :=
  [{ call := .list, kind := some (.text Kind.operatorSource), times := 1,
     fault := .storeFailure "unreachable" }]

/-- If the call that lists the owner fails, it is not brought up although the values have changed. -/
theorem not_fansOut_unlisted :
    ¬ ∀ (kinds : List String) (ns : Option Value) (c : Cluster Unit) (e : WatchEvent),
      kinds.Nodup → c.store.Filed → Flaky c → (c.proxy.project (statusOf c)).2 = none →
      NoEffect c (((Mapper.clusterProxy kinds ns).map e).runOn c) ∨
        FansOut kinds ns c (((Mapper.clusterProxy kinds ns).map e).runOn c) := by
  intro h
  have hflaky : Flaky (lodging unlisted) := by
    intro o ho
    cases List.mem_singleton.mp ho
    rfl
  rcases h [Kind.operatorSource] none (lodging unlisted)
    { type := .update, object := .proxy moved } (by decide) (filed_lodging unlisted) hflaky rfl
    with hnone | hall
  · have hconfig : (rerouted unlisted).1.proxy.config = moved.status := by decide +kernel
    exact absurd (hconfig.symm.trans hnone.config) (by decide)
  · obtain ⟨ks, hks, -, howners⟩ := hall.keys
    have hkeys : (rerouted unlisted).2 = .ok [] := by decide +kernel
    cases hkeys.symm.trans hks
    cases (howners lodger.key).mpr (owner_lodger unlisted)

end CatalogOperator.Proofs.Watch
