import CatalogOperator.Proofs.Reconcile.Handlers

/-!
# `CatalogOperator.Proofs.Reconcile.Notes`: the notes on one resource

Reconciles take notes outside the cluster: a copy of a catalog source config from before its latest
attempt, and the packages and the last failure of an operator source. A reconcile touches no notes but
those on its own resource. When it finds that the resource is gone, it drops them, unless the store
cannot be read.

* `Notes`: what is done to the notes while a resource is reconciled. `notes_reconcile`: a reconcile
  does no more.
* `Tidy`: no notes on a resource are left. `Assorted`: there are notes of each sort on resources of one
  kind only.
* `Manages`: the reconciles of the two managed kinds. `Manages.notes` and `Manages.absent` say what
  they do to the notes.
-/

set_option autoImplicit false

namespace CatalogOperator.Proofs.Reconcile

section

variable {δ : Type}

/-! ### One resource at a time -/

/-- Whether nothing is done to the notes on any resource but the one under a key. -/
structure Notes (K : ObjectKey) (s s' : Shared δ) : Prop where
  copy : ∀ k, k ≠ K ∨ k.kind ≠ .text Kind.catalogSourceConfig →
    s'.lastKnownGood.find? k = s.lastKnownGood.find? k
  packages : ∀ k, k ≠ K ∨ k.kind ≠ .text Kind.operatorSource →
    s'.packages.find? k = s.packages.find? k
  failure : ∀ name, name ≠ K.name ∨ K.kind ≠ .text Kind.operatorSource →
    s'.tracker.find? name = s.tracker.find? name

/-- What leaves the notes on other resources alone may be done one after the other. -/
theorem sequential_notes (K : ObjectKey) :
    Sequential (Notes K : Shared δ → Shared δ → Prop) where
  refl _ := ⟨fun _ _ => rfl, fun _ _ => rfl, fun _ _ => rfl⟩
  trans h h' := ⟨fun k hk => (h'.copy k hk).trans (h.copy k hk),
    fun k hk => (h'.packages k hk).trans (h.packages k hk),
    fun v hv => (h'.failure v hv).trans (h.failure v hv)⟩

/-- There are no notes in the cluster. -/
theorem notes_cluster (K : ObjectKey) (s : Shared δ) (cluster : Cluster δ) :
    Notes K s { s with cluster } :=
  ⟨fun _ _ => rfl, fun _ _ => rfl, fun _ _ => rfl⟩

/-- So no deployer takes notes. -/
theorem allows_notes (D : Deployer δ) (K : ObjectKey) : Allows D (Notes K) where
  toSequential := sequential_notes K
  aside s cluster _ := notes_cluster K s cluster
  update s _ := notes_cluster K s _
  ensure _ _ := obeys_onCluster (Q := fun _ _ => True) (fun s cluster _ => notes_cluster K s cluster)
    fun _ => Run.obeys_anything _ _
  populate _ := obeys_onCluster (Q := fun _ _ => True) (fun s cluster _ => notes_cluster K s cluster)
    fun _ => Run.obeys_anything _ _

/-- A key that is another one, or of another kind, is not that of a resource of the kind. -/
theorem ne_of_other {kind : Value} {K k : ObjectKey} (hK : K.kind = kind)
    (hk : k ≠ K ∨ k.kind ≠ kind) : K ≠ k := by
  rintro rfl
  exact hk.elim (fun h => h rfl) fun h => h hK

/-- The failures under a name are those of the operator source of this name. -/
theorem name_ne_of_other {kind name : Value} {K : ObjectKey} (hK : K.kind = kind)
    (hname : name ≠ K.name ∨ K.kind ≠ kind) : K.name ≠ name :=
  fun e => hname.elim (fun h => h e.symm) fun h => h hK

/-- The books on a resource are the notes on it. -/
theorem books_notes (K : ObjectKey) : Books (Notes K : Shared δ → Shared δ → Prop) K where
  record r hr := by
    refine .step fun s => ⟨fun _ _ => rfl, fun k hk => ?_, fun _ _ => rfl⟩
    subst hr
    show (PackageIndex.record s.packages r).find? k = _
    unfold PackageIndex.record
    split
    · rw [Table.find?_insert, if_neg (ne_of_other rfl hk)]
    · rfl
  track r _ hr := by
    refine .step fun s => ⟨fun _ _ => rfl, fun _ _ => rfl, fun name hname => ?_⟩
    subst hr
    have hne : r.name ≠ name := name_ne_of_other (K := r.key) rfl hname
    show (s.tracker.insert r.name _).find? name = _
    rw [Table.find?_insert, if_neg hne]
  untrack r hr := by
    refine .step fun s => ⟨fun _ _ => rfl, fun _ _ => rfl, fun name hname => ?_⟩
    subst hr
    have hne : r.name ≠ name := name_ne_of_other (K := r.key) rfl hname
    show (s.tracker.erase r.name).find? name = _
    rw [Table.find?_erase, if_neg hne]
  remember r hr := by
    refine .step fun s => ⟨fun k hk => ?_, fun _ _ => rfl, fun _ _ => rfl⟩
    subst hr
    show (s.lastKnownGood.insert r.key r).find? k = _
    rw [Table.find?_insert, if_neg (ne_of_other rfl hk)]

/-- What is dropped when a resource is gone are the notes on it. -/
theorem notes_forgetCopy {K : ObjectKey} (hK : K.kind = .text Kind.catalogSourceConfig) :
    Activity.Obeys (Notes K : Shared δ → Shared δ → Prop) (Controller.forgetCopy K).run := by
  refine .step fun s => ⟨fun k hk => ?_, fun _ _ => rfl, fun _ _ => rfl⟩
  show (s.lastKnownGood.erase K).find? k = _
  rw [Table.find?_erase, if_neg (ne_of_other hK hk)]

/-- Forgetting a source that is gone leaves the notes on other resources alone. -/
theorem notes_forgetSource {K : ObjectKey} (hK : K.kind = .text Kind.operatorSource) :
    Activity.Obeys (Notes K : Shared δ → Shared δ → Prop) (Controller.forgetSource K).run := by
  refine .step fun s => ⟨fun _ _ => rfl, fun k hk => ?_, fun name hname => ?_⟩
  · show (s.packages.erase K).find? k = _
    rw [Table.find?_erase, if_neg (ne_of_other hK hk)]
  · show (s.tracker.erase K.name).find? name = _
    rw [Table.find?_erase, if_neg (name_ne_of_other hK hname)]

variable {Spec Packages : Type} [ManagedKind Spec Packages] {D : Deployer δ}
  {d : Dispatcher (Shared δ) (Managed Spec Packages)} {deleted : DeletionHook δ} {K k : ObjectKey}
  {s s' : Shared δ}

/-- A reconcile touches no notes but those on the resource under its key, provided that every object
stands under its own key and dropping the notes does no more either. -/
theorem notes_reconcile (hd : Standard D d) (hs : s.cluster.store.Filed)
    (hdel : (deleted K).run.Obeys (Notes K)) :
    ((reconcile d deleted K).run s).Obeys (Notes K) s := by
  refine obeys_reconcile (allows_notes D K) hd (fun r s' hr => ?_) hdel
  have hkey : K = r.key := keyOf_eq_ok (hs K _ hr.objectAt_eq)
  exact hkey ▸ books_notes K

/-! ### Tidy notes -/

/-- Whether there are no notes on the resource under a key. -/
structure Tidy (k : ObjectKey) (s : Shared δ) : Prop where
  copy : s.lastKnownGood.find? k = none
  packages : s.packages.find? k = none
  failure : k.kind = .text Kind.operatorSource → s.tracker.find? k.name = none

/-- Whether there are copies of catalog source configs only, and packages of operator sources only. -/
structure Assorted (s : Shared δ) : Prop where
  copy : ∀ k, k.kind ≠ .text Kind.catalogSourceConfig → s.lastKnownGood.find? k = none
  packages : ∀ k, k.kind ≠ .text Kind.operatorSource → s.packages.find? k = none

/-- There stay notes of each sort on resources of one kind only. -/
theorem Notes.assorted (h : Notes K s s') (hs : Assorted s) : Assorted s' where
  copy k hk := (h.copy k (.inr hk)).trans (hs.copy k hk)
  packages k hk := (h.packages k (.inr hk)).trans (hs.packages k hk)

/-- Resources that are told apart by their names alone do not touch each other's notes. -/
theorem Notes.tidy (h : Notes K s s') (hne : k ≠ K)
    (hname : K.kind = .text Kind.operatorSource → k.kind = K.kind → k.name ≠ K.name)
    (hk : Tidy k s) : Tidy k s' where
  copy := (h.copy k (.inl hne)).trans hk.copy
  packages := (h.packages k (.inl hne)).trans hk.packages
  failure hkind := by
    have hother : k.name ≠ K.name ∨ K.kind ≠ .text Kind.operatorSource := by
      by_cases hK : K.kind = .text Kind.operatorSource
      · exact .inl (hname hK (hkind.trans hK.symm))
      · exact .inr hK
    exact (h.failure k.name hother).trans (hk.failure hkind)

/-! ### Resources that are gone -/

/-- A reconcile of a resource that is gone is over at once. It fails to read the store, or it drops
the notes. -/
theorem absent_cases (d : Dispatcher (Shared δ) (Managed Spec Packages))
    (deleted : DeletionHook δ) (hat : objectAt K s = none) :
    (∃ cluster f, (reconcile d deleted K).run s = .finished { s with cluster } (.error f) ∧
        ((Cluster.get K).runOn s.cluster).2 = .error f) ∨
      ∃ cluster, (reconcile d deleted K).run s =
        (do deleted K; return false : Attempt (Shared δ) Bool).run { s with cluster } := by
  have hsame := Cluster.get_of_absent hat (.only (ManagedKind.kind Spec))
  rw [reconcile_run]
  cases hget : Call.runOn (Cluster.get K (.only (ManagedKind.kind Spec))) s.cluster with
  | mk cluster x =>
    rw [hget] at hsame
    cases x with
    | error f => exact .inl ⟨cluster, f, rfl, congrArg Prod.snd hsame.symm⟩
    | ok m =>
      have hnone : m = none := (Cluster.get_eq_ok hget).symm.trans hat
      subst hnone
      exact .inr ⟨cluster, rfl⟩

/-- Whether a controller reconciles the resources of one of the managed kinds, with a given
deployer. -/
inductive Manages (D : Deployer δ) (c : Controller δ) : Prop
  | catalogs (limit : Option Deadline) : c.kind = Kind.catalogSourceConfig →
    c.reconcile = reconcile (Catalog.dispatcher D limit) Controller.forgetCopy → Manages D c
  | sources (limit : Option Deadline) : c.kind = Kind.operatorSource →
    c.reconcile = reconcile (Source.dispatcher D limit) Controller.forgetSource → Manages D c

variable {c c' : Controller δ}

/-- What a controller manages depends on its kind and the way it reconciles only. -/
theorem Manages.of_eq (hc : Manages D c) (hkind : c'.kind = c.kind)
    (hrec : c'.reconcile = c.reconcile) : Manages D c' := by
  cases hc with
  | catalogs limit hk hr => exact .catalogs limit (hkind.trans hk) (hrec.trans hr)
  | sources limit hk hr => exact .sources limit (hkind.trans hk) (hrec.trans hr)

/-- What a controller does touches no notes but those on the resource under the key. -/
theorem Manages.notes (hc : Manages D c) (hk : k.kind = .text c.kind)
    (hs : s.cluster.store.Filed) : ((c.reconcile k).run s).Obeys (Notes k) s := by
  cases hc with
  | catalogs limit hkind hrec =>
    rw [hkind] at hk
    rw [hrec]
    exact notes_reconcile (.catalog limit) hs (notes_forgetCopy hk)
  | sources limit hkind hrec =>
    rw [hkind] at hk
    rw [hrec]
    exact notes_reconcile (.source limit) hs (notes_forgetSource hk)

/-- A controller that finds a resource gone leaves no notes on it, or it leaves all notes as they are
because it could not read the store. -/
theorem Manages.absent (hc : Manages D c) (hk : k.kind = .text c.kind) (hs : Assorted s)
    (hat : objectAt k s = none) :
    ∃ u result, (c.reconcile k).run s = .finished u result ∧
      (Tidy k u ∨ (∃ cluster, u = { s with cluster }) ∧
        ∃ f, ((Cluster.get k).runOn s.cluster).2 = .error f) := by
  cases hc with
  | catalogs limit hkind hrec =>
    rw [hkind] at hk
    rw [hrec]
    rcases absent_cases (Catalog.dispatcher D limit) Controller.forgetCopy hat with
      ⟨cluster, f, hrun, hget⟩ | ⟨cluster, hrun⟩
    · exact ⟨_, _, hrun, .inr ⟨⟨cluster, rfl⟩, f, hget⟩⟩
    -- The copy is dropped, and packages are known of sources only.
    · refine ⟨_, _, hrun, .inl ⟨Table.find?_erase_self _ k, hs.packages k ?_, fun h => ?_⟩⟩
      · rw [hk]
        decide
      · rw [hk] at h
        exact absurd h (by decide)
  | sources limit hkind hrec =>
    rw [hkind] at hk
    rw [hrec]
    rcases absent_cases (Source.dispatcher D limit) Controller.forgetSource hat with
      ⟨cluster, f, hrun, hget⟩ | ⟨cluster, hrun⟩
    · exact ⟨_, _, hrun, .inr ⟨⟨cluster, rfl⟩, f, hget⟩⟩
    -- The packages and the failure are dropped, and copies are taken of the other kind only.
    · refine ⟨_, _, hrun, .inl ⟨hs.copy k ?_, Table.find?_erase_self _ k, fun _ =>
        Table.find?_erase_self _ k.name⟩⟩
      rw [hk]
      decide

end

end CatalogOperator.Proofs.Reconcile
