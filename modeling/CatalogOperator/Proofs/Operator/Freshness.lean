import CatalogOperator.Proofs.Operator.Start
import CatalogOperator.Proofs.Reconcile.Lifecycle

/-!
# `CatalogOperator.Proofs.Operator.Freshness`: no change is missed

A change of a managed resource is on its way to a reconcile at every moment: its event waits in the
feed, or its key is dirty at its controller. When a reconcile of the key begins, it finds the object
as it is then. So when the operator is idle, the last reconcile of every managed resource has found
the object that is there.

* `Known`: the objects that were there at first or have changed since.
* `Latest`: where the last reconcile of a key began. `Current`: it has found what is there now.
* `Step.current_or_underway`: what every step keeps. `History.current_or_underway`: it holds all
  along.
* `fresh_of_idle`: at an idle operator, nothing is on its way.
-/

set_option autoImplicit false

namespace CatalogOperator.Proofs.Operation

open Queue Reconcile

section

variable {δ : Type}

/-- Whether an object is there at first or changes later. -/
def Known (o₀ : Operator δ) (k : ObjectKey) (h : List Happening) : Prop :=
  (objectAt k o₀.shared).isSome = true ∨ .changed k ∈ h

/-- Whether the last reconcile of a key in a history began in a given state, with what has happened
since. -/
def Latest (o₀ : Operator δ) (k : ObjectKey) (h : List Happening) (o seen : Operator δ)
    (since : List Happening) : Prop :=
  ∃ before time rest later seen', History o₀ before seen ∧
    Step seen (.began time k :: rest) seen' ∧ History seen' later o ∧
    h = before ++ .began time k :: since ∧ since = rest ++ later ∧ ∀ t, .began t k ∉ since

/-- Whether the last reconcile of a key in a history began after the last change of its object. A look
at the store at the beginning of its first step, if it does not fail, finds what is there now. -/
def Current (o₀ : Operator δ) (k : ObjectKey) (h : List Happening) (o : Operator δ) : Prop :=
  ∃ before time rest later seen seen', History o₀ before seen ∧
    Step seen (.began time k :: rest) seen' ∧ History seen' later o ∧
    h = before ++ .began time k :: (rest ++ later) ∧
    (∀ t, .began t k ∉ rest ++ later) ∧ .changed k ∉ rest ++ later ∧
    ∀ e c m, (Cluster.get k e).runOn seen.shared.cluster = (c, .ok m) → objectAt k o.shared = m

/-- Whether a change of an object is on its way to a reconcile. -/
def Underway (k : ObjectKey) (o : Operator δ) : Prop :=
  Announced k o ∨ DirtyAt k o

variable {ns : String} {k : ObjectKey} {o₀ o o' seen : Operator δ}
  {h hs since : List Happening}

/-- A reconcile that begins is the first thing to happen in its step. -/
theorem Step.began_cases {t : Rat} (hs : Step o h o') (hk : .began t k ∈ h) :
    t = o.now ∧ ∃ rest, h = .began t k :: rest ∧ ∀ t', .began t' k ∉ rest := by
  cases hs with
  | write w => simp at hk
  | act m ha =>
    cases ha with
    | pass => simp at hk
    | stretch s ns =>
      -- A part begins at most once, and with its first happening.
      have hrest : ∀ t', Happening.began t' k ∉
          ns.map (fun n => .changed n.key) ++ ending o.now s.key s.run := by
        intro t'
        unfold ending
        split <;> simp
      unfold Stretch.happenings at hk ⊢
      rw [List.append_assoc] at hk ⊢
      rcases List.mem_append.mp hk with hk | hk
      · split at hk
        · next hfresh =>
          obtain ⟨rfl, rfl⟩ : t = o.now ∧ k = s.key := by simpa using hk
          exact ⟨rfl, _, by rw [if_pos hfresh]; rfl, hrest⟩
        · cases hk
      · exact absurd hk (hrest t)

/-- The last reconcile of a key stays the last one until another one begins. -/
theorem Latest.snoc (hl : Latest o₀ k h o seen since) (hstep : Step o hs o')
    (hbegan : ∀ t, .began t k ∉ hs) : Latest o₀ k (h ++ hs) o' seen (since ++ hs) := by
  obtain ⟨before, time, rest, later, seen', hbefore, hseen, hlater, rfl, rfl, hb⟩ := hl
  refine ⟨before, time, rest, later ++ hs, seen', hbefore, hseen, hlater.snoc hstep, ?_, ?_,
    fun t => ?_⟩
  · simp
  · rw [List.append_assoc]
  · rw [List.mem_append, not_or]
    exact ⟨hb t, hbegan t⟩

/-- A reconcile that begins is the last one. -/
theorem latest_of_began {t : Rat} (hh : History o₀ h o) (hstep : Step o hs o')
    (hbegan : .began t k ∈ hs) :
    ∃ rest, hs = .began t k :: rest ∧ Latest o₀ k (h ++ hs) o' o rest := by
  obtain ⟨-, rest, rfl, hrest⟩ := hstep.began_cases hbegan
  exact ⟨rest, rfl, h, t, rest, [], o', hh, hstep, .nil, rfl, (List.append_nil rest).symm, hrest⟩

/-- The last reconcile is current exactly if it has begun, no change of the object has come since, and
a look at the store in its beginning finds what is there now. -/
theorem current_iff : Current o₀ k h o ↔ ∃ seen since, Latest o₀ k h o seen since ∧
    .changed k ∉ since ∧ ∀ e c m, (Cluster.get k e).runOn seen.shared.cluster = (c, .ok m) →
      objectAt k o.shared = m := by
  constructor
  · rintro ⟨before, time, rest, later, seen, seen', hbefore, hseen, hlater, he, hb, hchanged, hfound⟩
    exact ⟨seen, _, ⟨before, time, rest, later, seen', hbefore, hseen, hlater, he, rfl, hb⟩, hchanged,
      hfound⟩
  · rintro ⟨seen, since, ⟨before, time, rest, later, seen', hbefore, hseen, hlater, he, rfl, hb⟩,
      hchanged, hfound⟩
    exact ⟨before, time, rest, later, seen, seen', hbefore, hseen, hlater, he, hb, hchanged, hfound⟩

/-- What the last reconcile has found stays current until another one begins or the object
changes. -/
theorem Current.snoc (hw : Wired ns o) (hc : Current o₀ k h o) (hstep : Step o hs o')
    (hbegan : ∀ t, .began t k ∉ hs) (hchanged : .changed k ∉ hs) : Current o₀ k (h ++ hs) o' := by
  rw [current_iff] at hc ⊢
  obtain ⟨seen, since, hlatest, hsince, hfound⟩ := hc
  refine ⟨seen, since ++ hs, hlatest.snoc hstep hbegan, ?_,
    fun e c m hget => (hstep.objectAt_eq hw hchanged).trans (hfound e c m hget)⟩
  rw [List.mem_append, not_or]
  exact ⟨hsince, hchanged⟩

/-- A reconcile that begins finds what is there, and this is current unless the object changes in the
same step. -/
theorem current_of_began {t : Rat} (hw : Wired ns o) (hh : History o₀ h o) (hstep : Step o hs o')
    (hbegan : .began t k ∈ hs) (hchanged : .changed k ∉ hs) : Current o₀ k (h ++ hs) o' := by
  obtain ⟨rest, rfl, hlatest⟩ := latest_of_began hh hstep hbegan
  rw [current_iff]
  exact ⟨o, rest, hlatest, fun hmem => hchanged (List.mem_cons_of_mem _ hmem),
    fun e c m hget => (hstep.objectAt_eq hw hchanged).trans (Cluster.get_eq_ok hget)⟩

/-- In every step, a key of which the last reconcile is current stays so unless a change gets
underway, and what is underway stays so until a reconcile begins. -/
theorem Step.current_or_underway (hw : Wired ns o) (hm : Managed ns k) (hh : History o₀ h o)
    (hstep : Step o hs o') (hc : Current o₀ k h o ∨ Underway k o) :
    Current o₀ k (h ++ hs) o' ∨ Underway k o' := by
  by_cases hchanged : .changed k ∈ hs
  · exact .inr (.inl (hstep.announced hw hchanged))
  · -- The object stays as it is in this step, so a reconcile that begins finds what is there after.
    by_cases hbegan : ∃ t, .began t k ∈ hs
    · obtain ⟨t, hbegan⟩ := hbegan
      exact .inl (current_of_began hw hh hstep hbegan hchanged)
    · rw [not_exists] at hbegan
      rcases hc with hc | hannounced | hdirty
      · exact .inl (hc.snoc hw hstep hbegan hchanged)
      · exact .inr (hstep.announced_or_dirty hw hm hannounced)
      · exact .inr (.inr (hstep.dirty hw hdirty (hbegan o.now)))

/-- All along, the last reconcile of an object that is known is current or a change is underway,
provided that this holds of the objects that are there at first. -/
theorem History.current_or_underway (hw : Wired ns o₀) (hm : Managed ns k)
    (hfirst : (objectAt k o₀.shared).isSome = true → Announced k o₀) (hh : History o₀ h o)
    (hknown : Known o₀ k h) : Current o₀ k h o ∨ Underway k o := by
  induction hh with
  | nil => exact .inr (.inl (hfirst (hknown.resolve_right List.not_mem_nil)))
  | @snoc h hs o o' hh hstep ih =>
    by_cases hbefore : Known o₀ k h
    · exact hstep.current_or_underway (hh.wired hw) hm hh (ih hbefore)
    · -- The object becomes known in this step.
      have hchanged : .changed k ∈ hs := by
        rcases hknown with hsome | hmem
        · exact absurd (.inl hsome) hbefore
        · exact (List.mem_append.mp hmem).resolve_left fun hmem => hbefore (.inr hmem)
      exact .inr (.inl (hstep.announced (hh.wired hw) hchanged))

/-- Nothing is underway at an idle operator. -/
theorem Wired.not_underway_of_isIdle (hw : Wired ns o) (hi : o.isIdle = true) : ¬ Underway k o := by
  unfold Operator.isIdle at hi
  rw [Bool.and_eq_true, beq_iff_eq, List.all_eq_true] at hi
  obtain ⟨hpending, hidle⟩ := hi
  rintro (⟨e, he, -⟩ | ⟨c, hc, hdirty⟩)
  · rw [hw.pending] at hpending
    rw [List.length_eq_zero_iff.mp hpending] at he
    cases he
  · exact (hw.staffed c hc).not_dirty_of_isIdle (hidle c hc) k hdirty

/-! ### An operator whose only resource is deleted -/

/-- One resource stands under its own key. -/
theorem filed_holding {Spec Packages : Type} [ManagedKind Spec Packages]
    (r : CatalogOperator.Managed Spec Packages) (surroundings : δ)
    (hkey : Store.keyOf r.toManifest = .ok r.key) :
    (holding r surroundings).cluster.store.Filed := by
  intro key m hm
  have hm : (Table.empty.insert r.key r.toManifest).find? key = some m := hm
  rw [Table.find?_insert, Table.find?_empty] at hm
  split at hm
  · next he =>
    cases hm
    rw [hkey, he]
  · cases hm

/-- Settings for a cluster without proxy values, with no resyncs. -/
def plainConfig : OperatorConfig where
  proxyAvailable := false
  sources := { resyncInterval := none }
  catalogs := { resyncInterval := none }

/-- An operator that has just been started over a store with one new operator source. -/
def opened : Operator Unit :=
  (Operator.start.runOn (Operator.init (holding fresh ()).cluster idle plainConfig)).1

/-- The same operator after the source was deleted, both events were routed, and a worker has found
that the source is gone. -/
def bereft : Operator Unit :=
  ((((Operator.callCluster (Write.delete fresh.key).call).runOn opened).1.step .route).step
    .route).step (.work 1 0)

/-- The operator source stands under its own key. -/
theorem filed_fresh : (holding fresh ()).cluster.store.Filed :=
  filed_holding fresh () rfl

/-! ### Idle operators -/

variable {cluster : Cluster δ} {D : Deployer δ} {config : OperatorConfig}

/-- No step of an operator that has been started, and no call of anybody else, ends its history. When
the operator is idle, the last reconcile of every managed resource that has been there began after
the last change of the resource and found what is there now. -/
theorem fresh_of_idle (hD : WorksThroughStore D) (hfiled : cluster.store.Filed)
    (hsub : cluster.store.subscriptions = []) (hfeed : cluster.feed = {})
    (hstart : Operator.start.runOn (Operator.init cluster D config) = (o₀, .ok ()))
    (hh : History o₀ h o) :
    (∀ m, ∃ h', History o₀ (h ++ h') (o.step m)) ∧
      (∀ w : Write, ∃ h', History o₀ (h ++ h') ((Operator.callCluster w.call).runOn o).1) ∧
      (o.isIdle = true → ∀ k, Managed config.ns k → Known o₀ k h → Current o₀ k h o) := by
  have hw := wired_of_start hstart hfiled hsub hfeed
  refine ⟨hh.continues hw (faithful_of_start hstart hD), fun w => ⟨_, hh.snoc (.write w)⟩,
    fun hi k hm hknown => ?_⟩
  have hfirst : (objectAt k o₀.shared).isSome = true → Announced k o₀ := by
    intro hsome
    obtain ⟨m, hat⟩ := Option.isSome_iff_exists.mp hsome
    exact announced_of_start hstart hw hat
  exact (hh.current_or_underway hw hm hfirst hknown).resolve_right
    ((hh.wired hw).not_underway_of_isIdle hi)

/-- A source that is deleted before any worker has looked at it is found gone. -/
theorem fresh_of_idle_deleted :
    ∃ h, History opened h bereft ∧ bereft.isIdle = true ∧
      Managed plainConfig.ns fresh.key ∧ Known opened fresh.key h ∧
      Current opened fresh.key h bereft := by
  have hstart : Operator.start.runOn (Operator.init (holding fresh ()).cluster idle plainConfig) =
      (opened, .ok ()) := rfl
  have fresh_of_history : ∀ {h : List Happening} {o : Operator Unit}, History opened h o → _ :=
    fresh_of_idle worksThroughStore_idle filed_fresh rfl rfl hstart
  obtain ⟨h₁, hdeleted⟩ := (fresh_of_history .nil).2.1 (.delete fresh.key)
  obtain ⟨h₂, hrouted⟩ := (fresh_of_history hdeleted).1 .route
  obtain ⟨h₃, hrouted'⟩ := (fresh_of_history hrouted).1 .route
  obtain ⟨h₄, hworked⟩ := (fresh_of_history hrouted').1 (.work 1 0)
  have hidle : bereft.isIdle = true := by decide +kernel
  have hm : Managed plainConfig.ns fresh.key := ⟨rfl, .inl rfl⟩
  have hknown : ∀ h, Known opened fresh.key h := fun _ => .inl (by decide +kernel)
  exact ⟨_, hworked, hidle, hm, hknown _,
    (fresh_of_idle worksThroughStore_idle filed_fresh rfl rfl hstart hworked).2.2 hidle _ hm
      (hknown _)⟩

end

end CatalogOperator.Proofs.Operation
