import CatalogOperator.Proofs.Operator.Freshness
import CatalogOperator.Proofs.Operator.Locality
import CatalogOperator.Proofs.Reconcile.Notes

/-!
# `CatalogOperator.Proofs.Operator.Tidiness`: nothing is remembered of what is gone

A reconcile that is under way when its resource is deleted may still take notes on it. But the
deletion makes the key dirty, and the reconcile that begins then finds the resource gone and drops
the notes. Since no two workers hold one key, nothing takes notes on the resource after that.

* `Tended`: what holds of the controllers, the workers and the notes all along.
* `Settled`: there are no notes on a resource, and no worker is in a reconcile of it. `Step.settled`:
  this stays so while the resource is gone.
* `Unread`: the last reconcile could not read the store. Its key is tried again later.
* `Attended`: a resource is there, or its notes have been dealt with or are about to be.
  `Step.attended` and `History.attended`: this holds all along.
* `tidy_of_idle`: at an idle operator, the notes have been dealt with.
-/

set_option autoImplicit false

namespace CatalogOperator.Proofs.Operation

open Queue Reconcile

section

variable {δ : Type}

/-! ### What the controllers and the workers do to the notes -/

/-- Whether the controllers of an operator are those of the managed kinds with a given deployer, what
its workers are about to do touches no notes but those on their own resources, and there are notes of
each sort on resources of one kind only. -/
structure Tended (ns : String) (D : Deployer δ) (o : Operator δ) : Prop extends Local ns o where
  manages : ∀ c ∈ o.controllers, Manages D c
  workers : ∀ c ∈ o.controllers, ∀ k t resume, .busy k t resume ∈ c.workers →
    ∀ w s, (resume w s).Obeys (Notes k) s
  assorted : Assorted o.shared

/-- Whether no worker is in a reconcile of a key. -/
def Free (k : ObjectKey) (o : Operator δ) : Prop :=
  ∀ c ∈ o.controllers, ∀ t resume, .busy k t resume ∉ c.workers

/-- Whether there are no notes on the resource under a key, and nobody is about to take any. -/
structure Settled (k : ObjectKey) (o : Operator δ) : Prop where
  tidy : Tidy k o.shared
  free : Free k o

variable {ns : String} {D : Deployer δ} {o o' : Operator δ} {h hs : List Happening}
  {k : ObjectKey} {m : Move} {s : Stretch δ}

/-- Dropping failures leaves tidy what is. -/
theorem Sheds.tidy {s s' : Shared δ} (h : Sheds s s') (hk : Tidy k s) : Tidy k s' where
  copy := h.lastKnownGood ▸ hk.copy
  packages := h.packages ▸ hk.packages
  failure hkind := h.tracker k.name (hk.failure hkind)

/-- A part of a reconcile touches no notes but those on its own resource. -/
theorem Tended.notes (ht : Tended ns D o) (hw : Wired ns o) (hs : stretch? o m = some s) :
    s.run.Obeys (Notes s.key) o.shared := by
  rcases stretch?_cases hs with ⟨c, hc, -, hqueued, hrun⟩ | ⟨c, hc, -, t, resume, hmem, hrun⟩
  · rw [hrun]
    exact (ht.manages c hc).notes ((hw.staffed c hc).kind_of_queued hqueued) hw.filed
  · rw [hrun]
    exact ht.workers c hc s.key t resume hmem _ _

/-- A step keeps the notes where they belong. -/
theorem Step.tended (hw : Wired ns o) (ht : Tended ns D o) (hstep : Step o hs o') :
    Tended ns D o' where
  toLocal := hstep.isLocal hw ht.toLocal
  manages c' hc' := by
    obtain ⟨c, hc, hturns⟩ := (hstep.turns hw).exists_turns hc'
    exact (ht.manages c hc).of_eq hturns.sameOffice.kind hturns.sameOffice.reconcile
  workers c' hc' k t resume hmem := by
    rcases hstep.busy_cases hw hc' hmem with ⟨c, hc, hmem⟩ | ⟨m, s, u, d, hsome, rfl, hrun⟩
    · exact ht.workers c hc k t resume hmem
    · have hobeys := ht.notes hw hsome
      rw [hrun] at hobeys
      exact hobeys.2
  assorted := by
    rcases hstep.shared_cases hw with ⟨hsheds, -⟩ | ⟨m, s, hsome, hshared, -⟩
    · exact ⟨fun k hk => hsheds.lastKnownGood ▸ ht.assorted.copy k hk,
        fun k hk => hsheds.packages ▸ ht.assorted.packages k hk⟩
    · rw [hshared]
      exact (ht.notes hw hsome).state.assorted ht.assorted

/-- The notes stay where they belong whatever happens. -/
theorem History.tended (hw : Wired ns o) (ht : Tended ns D o) (hh : History o h o') :
    Tended ns D o' := by
  induction hh with
  | nil => exact ht
  | snoc hh hstep ih => exact hstep.tended (hh.wired hw) ih

/-! ### Resources that are gone -/

/-- No worker is in a reconcile of a key that is queued. -/
theorem Wired.free_of_queued (hw : Wired ns o) {c : Controller δ} (hc : c ∈ o.controllers)
    (hk : k ∈ c.queue.queue) : Free k o := by
  intro c' hc' t resume hmem
  have hstaffed := hw.staffed c hc
  have hstaffed' := hw.staffed c' hc'
  -- Only one controller has to do with the kind of the key.
  have hkind := hstaffed.kind_of_queued hk
  have hkind' := hstaffed'.kind_of_processing (hstaffed'.processing_of_busy hmem)
  have hsame : c' = c :=
    List.inj_on_of_nodup_map hw.nodup hc' hc (Value.text.inj (hkind'.symm.trans hkind))
  subst hsame
  obtain ⟨es, held, ho, -⟩ := hstaffed.orderly
  exact ho.apart k hk (hstaffed.processing_of_busy hmem)

/-- If nobody is in a reconcile of a resource that is gone, the next part of one is over at once. It
drops the notes, or it leaves all of them because the store cannot be read. -/
theorem Tended.absent (ht : Tended ns D o) (hw : Wired ns o) (hs : stretch? o m = some s)
    (hat : objectAt s.key o.shared = none) (hf : Free s.key o) :
    ∃ u result, s.run = .finished u result ∧
      (Tidy s.key u ∨ (∃ cluster, u = { o.shared with cluster }) ∧
        ∃ f, ((Cluster.get s.key).runOn o.shared.cluster).2 = .error f) := by
  rcases stretch?_cases hs with ⟨c, hc, -, hqueued, hrun⟩ | ⟨c, hc, -, t, resume, hmem, -⟩
  · rw [hrun]
    exact (ht.manages c hc).absent ((hw.staffed c hc).kind_of_queued hqueued) ht.assorted hat
  · exact absurd hmem (hf c hc t resume)

/-- While a resource is gone, nobody falls asleep in a reconcile of it. -/
theorem Step.free (hw : Wired ns o) (ht : Tended ns D o) (hstep : Step o hs o')
    (hat : objectAt k o.shared = none) (hf : Free k o) : Free k o' := by
  intro c' hc' t resume hmem
  rcases hstep.busy_cases hw hc' hmem with ⟨c, hc, hmem⟩ | ⟨m, s, u, d, hsome, rfl, hrun⟩
  · exact hf c hc t resume hmem
  · obtain ⟨u', result, hfinished, -⟩ := ht.absent hw hsome hat hf
    rw [hrun] at hfinished
    cases hfinished

/-- Managed resources of the namespace that are told apart by their keys are told apart by their
names, if both are operator sources. -/
theorem Managed.name_ne (hm : Managed ns k) {K : ObjectKey} (hK : Within ns K) (hne : k ≠ K)
    (hkind : K.kind = .text Kind.operatorSource) (hsame : k.kind = K.kind) : k.name ≠ K.name := by
  intro hname
  refine hne ?_
  cases k
  cases K
  simp only [ObjectKey.mk.injEq]
  exact ⟨hsame, hm.ns.trans (hK hkind).symm, hname⟩

/-- While a resource is gone, what is settled stays so. -/
theorem Step.settled (hw : Wired ns o) (ht : Tended ns D o) (hm : Managed ns k)
    (hstep : Step o hs o') (hat : objectAt k o.shared = none) (hk : Settled k o) :
    Settled k o' where
  free := hstep.free hw ht hat hk.free
  tidy := by
    rcases hstep.shared_cases hw with ⟨hsheds, -⟩ | ⟨m, s, hsome, hshared, -⟩
    · exact hsheds.tidy hk.tidy
    · rw [hshared]
      by_cases hkey : k = s.key
      · -- A reconcile of the resource itself is over at once.
        subst hkey
        obtain ⟨u, result, hrun, htidy | ⟨⟨cluster, rfl⟩, -⟩⟩ := ht.absent hw hsome hat hk.free
        · rw [hrun]
          exact htidy
        · rw [hrun]
          exact ⟨hk.tidy.copy, hk.tidy.packages, hk.tidy.failure⟩
      · exact (ht.notes hw hsome).state.tidy hkey
          (hm.name_ne (ht.within_stretch hw hsome) hkey) hk.tidy

/-- A reconcile that begins when its resource is gone settles it, or it cannot read the store. -/
theorem Step.settled_or_unreadable (hw : Wired ns o) (ht : Tended ns D o) (hstep : Step o hs o')
    (hat : objectAt k o.shared = none) {t : Rat} (hbegan : .began t k ∈ hs) :
    Settled k o' ∨ ∃ f, ((Cluster.get k).runOn o.shared.cluster).2 = .error f := by
  rcases hstep.shared_cases hw with ⟨-, hnone⟩ | ⟨m, s, hsome, hshared, hfirst⟩
  · exact absurd hbegan (hnone t k)
  · obtain ⟨hfresh, rfl⟩ := hfirst t k hbegan
    have hfree : Free s.key o := by
      rcases stretch?_cases hsome with ⟨c, hc, -, hqueued, -⟩ | ⟨c, hc, hlater, -⟩
      · exact hw.free_of_queued hc hqueued
      · rw [hlater] at hfresh
        cases hfresh
    obtain ⟨u, result, hrun, htidy | ⟨-, hget⟩⟩ := ht.absent hw hsome hat hfree
    · refine .inl ⟨?_, hstep.free hw ht hat hfree⟩
      rw [hshared, hrun]
      exact htidy
    · exact .inr hget

/-! ### All along -/

/-- Whether the last reconcile of a key began when the resource was gone and could not read the
store. -/
def Unread (o₀ : Operator δ) (k : ObjectKey) (h : List Happening) (o : Operator δ) : Prop :=
  ∃ seen since, Latest o₀ k h o seen since ∧ objectAt k seen.shared = none ∧
    ∃ f, ((Cluster.get k).runOn seen.shared.cluster).2 = .error f

/-- Whether the notes on a resource have been dealt with, or the resource is there, or its notes are
about to be dealt with, or a reconcile has been kept from dealing with them. Only a key that can be
looked up gives rise to notes. -/
def Attended (o₀ : Operator δ) (k : ObjectKey) (h : List Happening) (o : Operator δ) : Prop :=
  Settled k o ∨ k.fault? = none ∧
    ((objectAt k o.shared).isSome = true ∨ Underway k o ∨ Unread o₀ k h o)

variable {o₀ : Operator δ}

/-- Every step attends to every managed resource of the namespace. -/
theorem Step.attended (hw : Wired ns o) (ht : Tended ns D o) (hm : Managed ns k)
    (hh : History o₀ h o) (hstep : Step o hs o') (hk : Attended o₀ k h o) :
    Attended o₀ k (h ++ hs) o' := by
  by_cases hchanged : .changed k ∈ hs
  · obtain ⟨e, he, hkey⟩ := hstep.announced hw hchanged
    exact .inr ⟨(Store.keyOf_eq_ok_iff.mp hkey).2, .inr (.inl (.inl ⟨e, he, hkey⟩))⟩
  have hsame := hstep.objectAt_eq hw hchanged
  cases hat : objectAt k o.shared with
  | some m =>
    have hkey := hw.filed k m hat
    exact .inr ⟨(Store.keyOf_eq_ok_iff.mp hkey).2, .inl (by rw [hsame, hat]; rfl)⟩
  | none =>
    rcases hk with hsettled | ⟨husable, hk⟩
    · exact .inl (hstep.settled hw ht hm hat hsettled)
    · -- A reconcile that begins deals with the notes; without one, things stay under way.
      by_cases hbegan : ∃ t, .began t k ∈ hs
      · obtain ⟨t, hbegan⟩ := hbegan
        rcases hstep.settled_or_unreadable hw ht hat hbegan with hsettled | hget
        · exact .inl hsettled
        · obtain ⟨rest, -, hlatest⟩ := latest_of_began hh hstep hbegan
          exact .inr ⟨husable, .inr (.inr ⟨o, rest, hlatest, hat, hget⟩)⟩
      · rw [not_exists] at hbegan
        refine .inr ⟨husable, .inr ?_⟩
        rcases hk with hsome | (hannounced | hdirty) | ⟨seen, since, hlatest, hgone⟩
        · rw [hat] at hsome
          cases hsome
        · exact .inl (hstep.announced_or_dirty hw hm hannounced)
        · exact .inl (.inr (hstep.dirty hw hdirty (hbegan o.now)))
        · exact .inr ⟨seen, since ++ hs, hlatest.snoc hstep hbegan, hgone⟩

/-- All along, every managed resource of the namespace is attended to, provided that at first there
are no notes on what is not there. -/
theorem History.attended (hw : Wired ns o₀) (ht : Tended ns D o₀) (hm : Managed ns k)
    (hfirst : Settled k o₀) (hh : History o₀ h o) : Attended o₀ k h o := by
  induction hh with
  | nil => exact .inl hfirst
  | snoc hh hstep ih => exact hstep.attended (hh.wired hw) (hh.tended hw ht) hm hh ih

/-! ### Idle operators -/

variable {cluster : Cluster δ} {config : OperatorConfig}

/-- Nothing has been noted when an operator is started. -/
theorem settled_of_start
    (hstart : Operator.start.runOn (Operator.init cluster D config) = (o, .ok ())) (k : ObjectKey) :
    Settled k o := by
  obtain ⟨-, -, -, hsheds, -, -, -⟩ := start_cases hstart
  exact ⟨hsheds.tidy ⟨rfl, rfl, fun _ => rfl⟩, fun c hc t resume => not_busy_of_start hstart hc⟩

/-- Starting an operator causes no outage. -/
theorem outages_of_start
    (hstart : Operator.start.runOn (Operator.init cluster D config) = (o, .ok ()))
    (ho : cluster.store.outages = []) : o.shared.cluster.store.outages = [] := by
  obtain ⟨cluster', haside, hcluster, -, -, -, -⟩ := start_cases hstart
  rw [hcluster, attach_eq]
  exact haside.outages ho

/-- The notes are where they belong once the operator has been started. -/
theorem tended_of_start
    (hstart : Operator.start.runOn (Operator.init cluster D config) = (o, .ok ())) :
    Tended config.ns D o where
  toLocal := local_of_start hstart
  manages c hc := by
    rcases opened_of_start hstart hc with ho | ho
    · exact .catalogs _ ho.kind ho.reconcile
    · exact .sources _ ho.kind ho.reconcile
  workers c hc k t resume hmem := absurd hmem (not_busy_of_start hstart hc)
  assorted := ⟨fun k _ => (settled_of_start hstart k).tidy.copy,
    fun k _ => (settled_of_start hstart k).tidy.packages⟩

/-- No step of an operator that has been started, and no call of anybody else, ends its history. When
the operator is idle, there are no notes on a managed resource that is not there, unless the last
reconcile of it could not read the store. So there are none if there are no outages. -/
theorem tidy_of_idle (hD : WorksThroughStore D) (hfiled : cluster.store.Filed)
    (hsub : cluster.store.subscriptions = []) (hfeed : cluster.feed = {})
    (hstart : Operator.start.runOn (Operator.init cluster D config) = (o₀, .ok ()))
    (hh : History o₀ h o) :
    (∀ m, ∃ h', History o₀ (h ++ h') (o.step m)) ∧
      (∀ w : Write, ∃ h', History o₀ (h ++ h') ((Operator.callCluster w.call).runOn o).1) ∧
      (o.isIdle = true → ∀ k, Managed config.ns k → objectAt k o.shared = none →
        (Tidy k o.shared ∨ Unread o₀ k h o) ∧
          (cluster.store.outages = [] → Tidy k o.shared)) := by
  have hw := wired_of_start hstart hfiled hsub hfeed
  refine ⟨hh.continues hw (faithful_of_start hstart hD), fun w => ⟨_, hh.snoc (.write w)⟩,
    fun hi k hm hat => ?_⟩
  rcases hh.attended hw (tended_of_start hstart) hm (settled_of_start hstart k) with
    hsettled | ⟨husable, hsome | hunderway | hunread⟩
  · exact ⟨.inl hsettled.tidy, fun _ => hsettled.tidy⟩
  · rw [hat] at hsome
    cases hsome
  · exact absurd hunderway ((hh.wired hw).not_underway_of_isIdle hi)
  · refine ⟨.inr hunread, fun ho => ?_⟩
    -- Without outages, the store could have been read.
    obtain ⟨seen, -, ⟨before, -, -, -, -, hbefore, -⟩, hgone, f, hget⟩ := hunread
    have hclear := hbefore.outages hw (outages_of_start hstart ho)
    rw [Cluster.get_of_clear_of_absent hclear husable hgone] at hget
    cases hget

/-! ### A source that is deleted while it is being configured -/

/-- An operator source that is being configured. -/
def ailing : OperatorSource :=
  { fresh with phase := { name := .text Phase.configuring.text, message := .text "" } }

/-- A deployer that fails after a second. -/
def sluggish : Deployer Unit where
  ensure _ r := do
    let _ ← Activity.sleep 1
    return (r, .error (.systemFailure "refused"))
  populate r c := (c, r, .ok ())

/-- The sluggish deployer leaves the store alone. -/
theorem worksThroughStore_sluggish : WorksThroughStore sluggish where
  ensure _ _ c := ⟨⟨[], .refl c⟩, fun _ c' => ⟨[], .refl c'⟩⟩
  populate _ c := ⟨[], .refl c⟩

/-- A cluster with this source alone, and with outages to come. -/
def ward (outages : List Outage) : Cluster Unit :=
  { (holding ailing ()).cluster with
    store := { (holding ailing ()).cluster.store with outages } }

/-- An operator that has just been started over this cluster. -/
def installed (outages : List Outage) : Operator Unit :=
  (Operator.start.runOn (Operator.init (ward outages) sluggish plainConfig)).1

/-- The same operator after the source was deleted while the deployer slept, the deletion was routed,
and the deployer has failed. -/
def orphaned (outages : List Outage) : Operator Unit :=
  ((((Operator.callCluster (Write.delete ailing.key).call).runOn
    (((installed outages).step .route).step (.work 1 0))).1.step .route).step (.tick 1)).step
      (.wake 1 0)

/-- The operator starts without an error. -/
theorem start_installed (outages : List Outage) :
    Operator.start.runOn (Operator.init (ward outages) sluggish plainConfig) =
      (installed outages, .ok ()) :=
  rfl

/-- The source stands under its own key. -/
theorem filed_ward (outages : List Outage) : (ward outages).store.Filed :=
  filed_holding ailing () rfl

/-- After that, the next reconcile may begin. -/
theorem exists_history_orphaned (outages : List Outage) :
    ∃ h, History (installed outages) h ((orphaned outages).step (.work 1 0)) := by
  have hw := wired_of_start (start_installed outages) (filed_ward outages) rfl rfl
  have hf := faithful_of_start (start_installed outages) worksThroughStore_sluggish
  obtain ⟨h₁, hrouted⟩ := History.nil.continues hw hf .route
  obtain ⟨h₂, hworked⟩ := hrouted.continues hw hf (.work 1 0)
  have hdeleted := hworked.snoc (.write (.delete ailing.key))
  obtain ⟨h₃, hrouted'⟩ := hdeleted.continues hw hf .route
  obtain ⟨h₄, hwaited⟩ := hrouted'.continues hw hf (.tick 1)
  obtain ⟨h₅, hwoken⟩ := hwaited.continues hw hf (.wake 1 0)
  obtain ⟨h₆, hworked'⟩ := hwoken.continues hw hf (.work 1 0)
  exact ⟨_, hworked'⟩

/-- The failure is tracked although the source is gone, until the next reconcile. -/
theorem tidy_of_idle_orphaned :
    ((orphaned []).shared.tracker.find? ailing.name).isSome = true ∧
      ((orphaned []).step (.work 1 0)).isIdle = true ∧ Managed plainConfig.ns ailing.key ∧
      objectAt ailing.key ((orphaned []).step (.work 1 0)).shared = none ∧
      Tidy ailing.key ((orphaned []).step (.work 1 0)).shared := by
  obtain ⟨h, hh⟩ := exists_history_orphaned []
  have hidle : ((orphaned []).step (.work 1 0)).isIdle = true := by decide +kernel
  have hm : Managed plainConfig.ns ailing.key := ⟨rfl, .inl rfl⟩
  have hat : objectAt ailing.key ((orphaned []).step (.work 1 0)).shared = none := by
    decide +kernel
  have htidy := ((tidy_of_idle worksThroughStore_sluggish (filed_ward []) rfl rfl
    (start_installed []) hh).2.2 hidle _ hm hat).2 rfl
  exact ⟨by decide +kernel, hidle, hm, hat, htidy⟩

/-- The first read after the deletion meets an outage. -/
def unreachable : List Outage :=
  [{ call := .get, after := 1, times := 1, fault := .storeFailure "unreachable" }]

/-- With such an outage, the operator is idle while the failure of the source is still tracked. -/
theorem not_tidy_unreachable :
    Operator.start.runOn (Operator.init (ward unreachable) sluggish plainConfig) =
        (installed unreachable, .ok ()) ∧
      ¬ ∀ h o, History (installed unreachable) h o → o.isIdle = true →
        ∀ k, Managed plainConfig.ns k → objectAt k o.shared = none → Tidy k o.shared := by
  refine ⟨start_installed unreachable, fun htidy => ?_⟩
  obtain ⟨h, hh⟩ := exists_history_orphaned unreachable
  have hfailure := (htidy h _ hh (by decide +kernel) ailing.key ⟨rfl, .inl rfl⟩
    (by decide +kernel)).failure rfl
  have htracked : (((orphaned unreachable).step (.work 1 0)).shared.tracker.find?
      ailing.key.name).isSome = true := by decide +kernel
  rw [hfailure] at htracked
  cases htracked

end

end CatalogOperator.Proofs.Operation
