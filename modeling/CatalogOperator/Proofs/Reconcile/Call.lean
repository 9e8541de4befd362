import CatalogOperator.Operator.Controller
import CatalogOperator.Proofs.Manifest.Same
import CatalogOperator.Proofs.Reconcile.Dispatch

/-!
# `CatalogOperator.Proofs.Reconcile.Call`: one reconcile from the read to the write

A reconcile reads the object under its key, dispatches it, and finishes: it puts the next phase into
the resource of the outcome and writes that resource back. Reading and finishing never sleep. All
sleeping is done in the dispatch, so others can interfere only there.

* `Reads`, `finish`: the two ends of a reconcile.
* `reconcile_run_of_reads`: a reconcile that finds a resource is its dispatch, finished.
* `finish_cases`: what finishing does to the objects of the cluster. `finish_stores` says what
  stands under the key after it.
* `dispatch_of_leads`: how a reconcile that finds a resource comes to its end.
-/

set_option autoImplicit false

namespace CatalogOperator.Proofs.Reconcile

variable {δ Spec Packages : Type} {K : ObjectKey}

/-! ### Settling -/

/-- Only the phase of a resource is settled. -/
theorem settle_eq (o : Outcome (Managed Spec Packages)) (clock : Clock) :
    (o.settle clock).1 = { o.resource with phase := (o.settle clock).1.phase } := by
  unfold Outcome.settle
  split
  · rfl
  · split <;> rfl

/-- The next phase gives the name and the message. -/
theorem settle_of_some {o : Outcome (Managed Spec Packages)} {next : Transition}
    (h : o.next = some next) (clock : Clock) :
    (o.settle clock).1.phase.name = .text next.name ∧
      (o.settle clock).1.phase.message = .text next.message := by
  unfold Outcome.settle
  rw [h]
  dsimp only
  split
  -- Either the phase has the name and the message already, or it takes them over.
  · rename_i hagrees
    rw [PhaseRecord.agrees, Bool.and_eq_true, beq_iff_eq, beq_iff_eq] at hagrees
    exact hagrees
  · rename_i hagrees
    unfold PhaseRecord.advance
    rw [if_neg hagrees]
    exact ⟨rfl, rfl⟩

variable [ManagedKind Spec Packages]

/-- Settling keeps the key. -/
theorem settle_key (o : Outcome (Managed Spec Packages)) (clock : Clock) :
    (o.settle clock).1.key = o.resource.key := by
  rw [settle_eq]
  rfl

/-! ### From the read to the write -/

/-- Whether a read of a key finds a resource, and the state after that. -/
def Reads (K : ObjectKey) (s : Shared δ) (r : Managed Spec Packages) (s' : Shared δ) : Prop :=
  ∃ cluster, Call.runOn (Cluster.get K (.only (ManagedKind.kind Spec))) s.cluster =
      (cluster, .ok (some r.toManifest)) ∧ s' = { s with cluster }

/-- What is left of a reconcile when the dispatch of a resource has come out. -/
def finish (r : Managed Spec Packages) (x : Except Fault (Outcome (Managed Spec Packages))) :
    Activity (Shared δ) (Except Fault Bool) :=
  match x with
  | .error f => .pure (.error f)
  | .ok o => .step fun s =>
    let (after, clock) := o.settle s.cluster.clock
    let cluster := { s.cluster with clock }
    if after.toManifest.same r.toManifest then ({ s with cluster }, .ok o.error.isSome)
    else
      let (cluster, ended) := Call.runOn (Cluster.update after.toManifest) cluster
      ({ s with cluster }, ended.map fun _ => o.error.isSome)

variable {d : Dispatcher (Shared δ) (Managed Spec Packages)} {deleted : DeletionHook δ}
  {r : Managed Spec Packages} {s t u : Shared δ}

/-- Writing back never sleeps. -/
theorem writeBack_run (before after : Managed Spec Packages) (s : Shared δ) :
    (writeBack before after).run s =
      if after.toManifest.same before.toManifest then .finished s (.ok ())
      else
        let (cluster, ended) := Call.runOn (Cluster.update after.toManifest) s.cluster
        .finished { s with cluster } ended := by
  unfold writeBack
  split <;> rfl

/-- Reconciling a resource that was read is dispatching and finishing it. -/
theorem reconcileResource_run (d : Dispatcher (Shared δ) (Managed Spec Packages))
    (r : Managed Spec Packages) (s : Shared δ) :
    (reconcileResource d r).run s = (d.dispatch [] r s).bind (finish r) := by
  show (d.dispatch [] r s).bind _ = _
  congr
  funext x u
  cases x with
  | error f => rfl
  | ok o =>
    show Run.bind ((writeBack r (o.settle u.cluster.clock).1).run
      { u with cluster := { u.cluster with clock := (o.settle u.cluster.clock).2 } }) _ = _
    rw [writeBack_run]
    simp only [finish, Activity.step]
    split
    · rfl
    · dsimp only [Run.bind]
      -- Both sides go on from the same update, whatever it makes of the cluster.
      generalize Call.runOn (Cluster.update (o.settle u.cluster.clock).1.toManifest) _ = updated
      obtain ⟨cluster, ended⟩ := updated
      cases ended <;> rfl

/-- What follows a call on the cluster goes on from what the call left, unless that failed. -/
theorem callCluster_bind_run {α β : Type} (c : Call (Cluster δ) α) (f : α → Attempt (Shared δ) β)
    (s : Shared δ) :
    (ExceptT.mk (Shared.callCluster c) >>= f : Attempt (Shared δ) β).run s =
      match c.runOn s.cluster with
      | (cluster, .ok a) => (f a).run { s with cluster }
      | (cluster, .error e) => .finished { s with cluster } (.error e) := by
  show (ExceptT.bindCont f (c.runOn s.cluster).2) { s with cluster := (c.runOn s.cluster).1 } = _
  cases h : c.runOn s.cluster with
  | mk cluster x => cases x <;> rfl

/-- A reconcile goes by what stands under its key. -/
theorem reconcile_run (d : Dispatcher (Shared δ) (Managed Spec Packages))
    (deleted : DeletionHook δ) (K : ObjectKey) (s : Shared δ) :
    (reconcile d deleted K).run s =
      match Call.runOn (Cluster.get K (.only (ManagedKind.kind Spec))) s.cluster with
      | (cluster, .error f) => .finished { s with cluster } (.error f)
      | (cluster, .ok m) =>
        match (m.bind ManagedKind.ofManifest? : Option (Managed Spec Packages)) with
        | none => (do deleted K; return false : Attempt (Shared δ) Bool).run { s with cluster }
        | some r => (d.dispatch [] r { s with cluster }).bind (finish r) := by
  unfold reconcile
  rw [callCluster_bind_run]
  cases Call.runOn (Cluster.get K (.only (ManagedKind.kind Spec))) s.cluster with
  | mk cluster x =>
    cases x with
    | error f => rfl
    | ok m =>
      dsimp only
      cases (m.bind ManagedKind.ofManifest? : Option (Managed Spec Packages)) with
      | none => rfl
      | some r => exact reconcileResource_run d r _

/-- A reconcile that finds a resource is its dispatch, finished. -/
theorem reconcile_run_of_reads (h : Reads K s r t) :
    (reconcile d deleted K).run s = (d.dispatch [] r t).bind (finish r) := by
  obtain ⟨cluster, hget, rfl⟩ := h
  rw [reconcile_run, hget]
  simp only [Option.bind_some, Managed.ofManifest?_toManifest]

/-- States with the same objects have the same object under every key. -/
theorem sameAt_of_objects_eq (h : t.cluster.store.objects = s.cluster.store.objects)
    (K : ObjectKey) : SameAt K s t :=
  congrArg (fun objects : Table ObjectKey Manifest => objects.find? K) h

/-- One resource at most stands under a key. -/
theorem stored_unique {r' : Managed Spec Packages} (h : objectAt K s = some r.toManifest)
    (h' : objectAt K s = some r'.toManifest) : r = r' :=
  Managed.toManifest_injective (Option.some.inj (h.symm.trans h'))

/-! ### Reading -/

/-- Reading leaves all objects as they are. -/
theorem Reads.objects_eq (h : Reads K s r t) :
    t.cluster.store.objects = s.cluster.store.objects := by
  obtain ⟨cluster, hget, rfl⟩ := h
  have hs := Cluster.keeps_get K (.only (ManagedKind.kind Spec)) s.cluster
  rw [hget] at hs
  exact hs

/-- What is read stands under the key. -/
theorem Reads.objectAt_eq (h : Reads K s r t) : objectAt K s = some r.toManifest := by
  obtain ⟨cluster, hget, -⟩ := h
  exact Cluster.get_eq_ok hget

/-- A read leaves the object under the key as it is. -/
theorem Reads.sameAt (h : Reads K s r t) : SameAt K s t :=
  sameAt_of_objects_eq h.objects_eq K

/-- Without outages, a resource is found under a usable key. -/
theorem reads_of_clear [ManagedContent Spec] (ho : s.cluster.store.outages = [])
    (hk : K.fault? = none) (hat : objectAt K s = some r.toManifest) : Reads K s r s := by
  refine ⟨s.cluster, Cluster.get_of_clear ho hk hat ?_, rfl⟩
  rw [Expected.admits, ManagedContent.typeName_toManifest, beq_self_eq_true]

/-- A reconcile fails to read its key, finds no resource there, or finds one. -/
theorem read_cases (d : Dispatcher (Shared δ) (Managed Spec Packages))
    (deleted : DeletionHook δ) (K : ObjectKey) (s : Shared δ) :
    (∃ u f, (reconcile d deleted K).run s = .finished u (.error f) ∧ SameAt K s u) ∨
      (∃ u, (reconcile d deleted K).run s =
          (do deleted K; return false : Attempt (Shared δ) Bool).run u ∧ SameAt K s u ∧
        ∀ r : Managed Spec Packages, objectAt K s ≠ some r.toManifest) ∨
      ∃ (r : Managed Spec Packages) (u : Shared δ), Reads K s r u := by
  have hs := Cluster.keeps_get K (.only (ManagedKind.kind Spec)) s.cluster
  rw [reconcile_run]
  cases hget : Call.runOn (Cluster.get K (.only (ManagedKind.kind Spec))) s.cluster with
  | mk cluster x =>
    rw [hget] at hs
    have same : SameAt K s { s with cluster } := sameAt_of_objects_eq hs K
    cases x with
    | error f => exact .inl ⟨_, f, rfl, same⟩
    | ok m =>
      dsimp only
      cases hm : (m.bind ManagedKind.ofManifest? : Option (Managed Spec Packages)) with
      | none =>
        -- A resource that stood there would have been found.
        refine .inr (.inl ⟨_, rfl, same, fun r hr => ?_⟩)
        have hfound : objectAt K s = m := Cluster.get_eq_ok hget
        rw [← hfound, hr, Option.bind_some, Managed.ofManifest?_toManifest] at hm
        cases hm
      | some r =>
        obtain ⟨m, rfl, hr⟩ := Option.bind_eq_some_iff.1 hm
        rw [ManagedKind.ofManifest?_eq_some_iff] at hr
        subst hr
        exact .inr (.inr ⟨r, _, cluster, hget, rfl⟩)

/-! ### Finishing -/

/-- A managed resource is stored under its own key. -/
theorem keyOf_eq_ok {key : ObjectKey} (h : Store.keyOf r.toManifest = .ok key) : key = r.key := by
  unfold Store.keyOf at h
  rw [Managed.key?_toManifest] at h
  change r.key.usable? = .ok key at h
  unfold ObjectKey.usable? at h
  split at h
  · cases h
  · cases h
    rfl

/-- A resource whose key can be looked up is stored under it. -/
theorem keyOf_of_usable (h : r.key.fault? = none) : Store.keyOf r.toManifest = .ok r.key := by
  unfold Store.keyOf
  rw [Managed.key?_toManifest]
  show r.key.usable? = .ok r.key
  unfold ObjectKey.usable?
  rw [h]

/-- Finishing never sleeps. -/
theorem finish_eq (r : Managed Spec Packages)
    (x : Except Fault (Outcome (Managed Spec Packages))) (s : Shared δ) :
    ∃ t result, finish r x s = .finished t result := by
  cases x with
  | error f => exact ⟨s, .error f, rfl⟩
  | ok o => exact ⟨_, _, rfl⟩

/-- Finishing either finds the settled resource equal to what was read and writes nothing, or the
update is refused, or the settled resource now stands under its key unless an equal object already
did. -/
theorem finish_cases {o : Outcome (Managed Spec Packages)} {result : Except Fault Bool}
    (h : finish r (.ok o) s = .finished t result) :
    let after := (o.settle s.cluster.clock).1
    (after.toManifest.same r.toManifest = true ∧ result = .ok o.error.isSome ∧
        t.cluster.store.objects = s.cluster.store.objects) ∨
      (∃ f, after.toManifest.same r.toManifest = false ∧ result = .error f ∧
        t.cluster.store.objects = s.cluster.store.objects) ∨
      ∃ existing, after.toManifest.same r.toManifest = false ∧ result = .ok o.error.isSome ∧
        s.cluster.store.objects.find? after.key = some existing ∧
        t.cluster.store.objects =
          if existing.same after.toManifest then s.cluster.store.objects
          else s.cluster.store.objects.insert after.key after.toManifest := by
  intro after
  unfold finish Activity.step at h
  dsimp only at h
  -- An object that comes out as it was read is not written.
  split at h
  · rename_i hsame
    cases h
    exact .inl ⟨hsame, rfl, rfl⟩
  · rename_i hsame
    rw [Bool.not_eq_true] at hsame
    refine .inr ?_
    cases hupdate : Call.runOn (Cluster.update after.toManifest)
      { s.cluster with clock := (o.settle s.cluster.clock).2 } with
    | mk cluster ended =>
      rw [hupdate] at h
      cases h
      rcases Cluster.update_cases after.toManifest
        { s.cluster with clock := (o.settle s.cluster.clock).2 } with
        ⟨f, hf, ho⟩ | ⟨key, existing, hk, hfound, hok, ho⟩
      · rw [hupdate] at hf ho
        subst hf
        exact .inl ⟨f, hsame, rfl, ho⟩
      · rw [hupdate] at hok ho
        subst hok
        rw [keyOf_eq_ok hk] at hfound ho
        exact .inr ⟨existing, hsame, rfl, hfound, ho⟩

/-- Without outages, finishing succeeds if there is an object to be updated. -/
theorem finish_of_clear {o : Outcome (Managed Spec Packages)} {existing : Manifest}
    (ho : s.cluster.store.outages = []) (hk : o.resource.key.fault? = none)
    (hat : objectAt o.resource.key s = some existing) :
    ∃ t, finish r (.ok o) s = .finished t (.ok o.error.isSome) := by
  have hkey : Store.keyOf (o.settle s.cluster.clock).1.toManifest = .ok o.resource.key := by
    rw [keyOf_of_usable (by rw [settle_key]; exact hk), settle_key]
  -- Settling takes the time and nothing else, so the update meets no outage either.
  have hok := Cluster.update_of_clear
    (c := { s.cluster with clock := (o.settle s.cluster.clock).2 }) ho hkey hat
  obtain ⟨t, result, h⟩ := finish_eq r (.ok o) s
  have hfin := h
  unfold finish Activity.step at h
  dsimp only at h
  split at h
  · cases h
    exact ⟨_, hfin⟩
  · cases h
    rw [hok] at hfin
    exact ⟨_, hfin⟩

/-- Finishing leaves the object under a key as it was, or it goes well and the settled resource,
which has that key and differs from what was read, now stands there. -/
theorem finish_objectAt {o : Outcome (Managed Spec Packages)} {result : Except Fault Bool}
    (h : finish r (.ok o) s = .finished t result) (K : ObjectKey) :
    SameAt K s t ∨
      (o.settle s.cluster.clock).1.key = K ∧
        (o.settle s.cluster.clock).1.toManifest.same r.toManifest = false ∧
        result = .ok o.error.isSome ∧
        objectAt K t = some (o.settle s.cluster.clock).1.toManifest := by
  rcases finish_cases h with ⟨-, -, ho⟩ | ⟨-, -, -, ho⟩ | ⟨existing, hsame, hb, -, ho⟩
  · exact .inl (sameAt_of_objects_eq ho K)
  · exact .inl (sameAt_of_objects_eq ho K)
  · split at ho
    · exact .inl (sameAt_of_objects_eq ho K)
    · -- The handler may have renamed the resource, which then stands under another key.
      by_cases hk : (o.settle s.cluster.clock).1.key = K
      · refine .inr ⟨hk, hsame, hb, ?_⟩
        unfold objectAt
        rw [ho, hk, Table.find?_insert_self]
      · refine .inl ?_
        unfold SameAt objectAt
        rw [ho, Table.find?_insert, if_neg hk]

/-- Finishing well writes an outcome that differs from what was read, if that still stands there. -/
theorem finish_writes {o : Outcome (Managed Spec Packages)} {b : Bool}
    (hat : objectAt K s = some r.toManifest) (hkey : o.resource.key = K)
    (hne : (o.settle s.cluster.clock).1.toManifest.same r.toManifest = false)
    (h : finish r (.ok o) s = .finished t (.ok b)) :
    objectAt K t = some (o.settle s.cluster.clock).1.toManifest := by
  rcases finish_cases h with ⟨hsame, -, -⟩ | ⟨_, -, hb, -⟩ | ⟨existing, -, -, hfound, ho⟩
  · rw [hne] at hsame
    cases hsame
  · cases hb
  · rw [settle_key, hkey] at hfound ho
    -- What stands there is what was read, and that differs from the settled resource.
    have heq : existing = r.toManifest := Option.some.inj (hfound.symm.trans hat)
    rw [heq, Manifest.same_comm, hne] at ho
    unfold objectAt
    rw [ho, if_neg Bool.false_ne_true, Table.find?_insert_self]

/-- Finishing well leaves a resource with the next phase under the key, be it the settled one or an
equal one that was read. -/
theorem finish_stores [ManagedContent Spec] {o : Outcome (Managed Spec Packages)}
    {next : Transition} {b : Bool} (hat : objectAt K s = some r.toManifest)
    (hkey : o.resource.key = K) (hnext : o.next = some next)
    (h : finish r (.ok o) s = .finished t (.ok b)) :
    ∃ r' : Managed Spec Packages, objectAt K t = some r'.toManifest ∧
      r'.phase.name = .text next.name ∧ r'.phase.message = .text next.message := by
  obtain ⟨hname, hmsg⟩ := settle_of_some hnext s.cluster.clock
  cases hsame : (o.settle s.cluster.clock).1.toManifest.same r.toManifest with
  | false => exact ⟨_, finish_writes hat hkey hsame h, hname, hmsg⟩
  | true =>
    -- The resource counts as equal to what was read, which has the same phase then.
    have ht : SameAt K s t := by
      rcases finish_objectAt h K with ht | ⟨-, hne, -, -⟩
      · exact ht
      · rw [hsame] at hne
        cases hne
    rw [Manifest.same_comm] at hsame
    exact ⟨r, ht.trans hat, Managed.phase_of_same hsame hname hmsg⟩

/-- A reconcile that found a resource and came to its end went through the end of its dispatch. -/
theorem dispatch_of_leads {others : Shared δ → Shared δ → Prop} {result : Except Fault Bool}
    {s' : Shared δ} (hr : Reads K s r s')
    (h : Run.Leads others ((reconcile d deleted K).run s) (.finished t result)) :
    ∃ v x, Run.Leads others (d.dispatch [] r s') (.finished v x) ∧
      finish r x v = .finished t result := by
  rw [reconcile_run_of_reads hr] at h
  obtain ⟨v, x, hl, hf⟩ := Run.leads_bind_finished h
  obtain ⟨t', result', hfin⟩ := finish_eq r x v
  rw [hfin] at hf
  rw [Run.leads_finished hf]
  exact ⟨v, x, hl, hfin⟩

/-! ### A cluster with one resource -/

/-- The shared state over a cluster in which nothing but a resource stands, with the given
surroundings. -/
def holding (r : Managed Spec Packages) (surroundings : δ) : Shared δ where
  cluster := {
    store := { objects := Table.empty.insert r.key r.toManifest }
    surroundings }

/-- The resource is there. -/
theorem objectAt_holding (r : Managed Spec Packages) (surroundings : δ) :
    objectAt r.key (holding r surroundings) = some r.toManifest :=
  Table.find?_insert_self _ _ _

/-- The resource is found, provided its key can be looked up. -/
theorem reads_holding [ManagedContent Spec] {r : Managed Spec Packages} (surroundings : δ)
    (hk : r.key.fault? = none) :
    Reads r.key (holding r surroundings) r (holding r surroundings) :=
  reads_of_clear rfl hk (objectAt_holding r surroundings)

/-- A deployer that has nothing to do. -/
def idle : Deployer δ where
  ensure _ r := .pure (r, .ok ())
  populate r c := (c, r, .ok ())

/-- The idle deployer leaves every object alone. -/
theorem spares_idle (K : ObjectKey) : Spares (idle : Deployer δ) K where
  ensure _ _ := .pure trivial
  populate _ _ := rfl

end CatalogOperator.Proofs.Reconcile
