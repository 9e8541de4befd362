import CatalogOperator.Operator.Lifecycle
import CatalogOperator.Proofs.Operator.Steps
import CatalogOperator.Proofs.Reconcile.Record

/-!
# `CatalogOperator.Proofs.Operator.History`: histories of a running operator

An operator runs among others that write to the store. `History` tells what has happened on the way
from one state of the operator to a later one, whatever the order of the steps and whatever others
write in between. A history does not count on the reconciles to end in any way, but it does count on
each part of a reconcile to work through the store.

* `Acts`: what happens in a step of the operator. `Step`: such a step, or one call of somebody else.
  `History`: any number of them.
* `Wired`: what holds of an operator all along. `Step.wired`: every step keeps it.
* `Step.turns`, `Step.account`: what a step does to the controllers, and to the store and the feed.
* `History.continues`: if the deployer works through the store, no step is left out.
-/

set_option autoImplicit false

namespace CatalogOperator.Proofs.Operation

open Queue Reconcile

section

variable {δ : Type}

/-! ### Steps and histories -/

/-- What happens as an operator takes a step. -/
inductive Acts (o : Operator δ) (m : Move) : List Happening → Prop
  /-- The step is no part of a reconcile. -/
  | pass : o.canStep m = true → stretch? o m = none → Acts o m ((asks o m).map .asked)
  /-- The step carries out a part of a reconcile, which works through the store. -/
  | stretch (s : Stretch δ) (ns : List (Notice Nat)) : o.canStep m = true → stretch? o m = some s →
    Trail o.shared.cluster ns s.run.state.cluster → Acts o m (s.happenings o.now ns)

/-- One step of an operator or of those around it, with what happens. -/
inductive Step (o : Operator δ) : List Happening → Operator δ → Prop
  /-- Somebody writes to the store. -/
  | write (w : Write) : Step o ((w.notices o.shared.cluster.store).map fun n => .changed n.key)
    ((Operator.callCluster w.call).runOn o).1
  /-- The operator takes a step. -/
  | act (m : Move) {h : List Happening} : Acts o m h → Step o h (o.step m)

/-- What has happened on the way from one state of an operator to a later one. -/
inductive History (o₀ : Operator δ) : List Happening → Operator δ → Prop
  | nil : History o₀ [] o₀
  | snoc {h hs : List Happening} {o o' : Operator δ} : History o₀ h o → Step o hs o' →
    History o₀ (h ++ hs) o'

/-- A call on the cluster changes nothing else. -/
theorem runOn_callCluster {α : Type} (c : Call (Cluster δ) α) (o : Operator δ) :
    ((Operator.callCluster c).runOn o).1 =
      { o with shared := { o.shared with cluster := (c.runOn o.shared.cluster).1 } } :=
  rfl

/-! ### What holds all along -/

/-- Whether an operator is at work in a namespace: its controllers are those of the managed kinds, it
is the only watcher of the store, and every event that has not been handled waits. -/
structure Wired (ns : String) (o : Operator δ) : Prop where
  ns : o.ns = some (.text ns)
  served : Served o
  staffed : ∀ c ∈ o.controllers, Staffed c
  watched : ∃ number, o.shared.cluster.store.WatchedBy number
  filed : o.shared.cluster.store.Filed
  pending : o.feed.pending = o.feed.events.length

/-- Whether an event on the object under a key waits to be routed. -/
def Announced (k : ObjectKey) (o : Operator δ) : Prop :=
  ∃ e ∈ o.feed.events, Store.keyOf e.object = .ok k

variable {ns : String} {o o' : Operator δ} {h : List Happening}

/-- No two controllers are of one kind. -/
theorem Served.nodup (hs : Served o) : (o.controllers.map (·.kind)).Nodup := by
  rw [hs]
  decide

/-- No two controllers of an operator at work are of one kind. -/
theorem Wired.nodup (hw : Wired ns o) : (o.controllers.map (·.kind)).Nodup :=
  hw.served.nodup

/-- What happens, happens in a step that the operator can take. -/
theorem Acts.can {m : Move} (ha : Acts o m h) : o.canStep m = true := by
  cases ha <;> assumption

/-- Everything that a step does to the controllers, it does by turns. -/
theorem Step.turns (hw : Wired ns o) (hs : Step o h o') :
    AllTurns o.now h o.controllers o'.controllers := by
  cases hs with
  | write w =>
    refine ⟨rfl, fun i c hc => ⟨c, hc, ?_⟩⟩
    rw [about_changed]
    exact .refl c
  | act m ha =>
    cases ha with
    | pass hcan hnone => exact (step_pass hw.nodup hcan hnone).1.turns
    | stretch s ns hcan hsome htrail =>
      obtain ⟨cs, delays, hturns, -, he⟩ := step_stretch hw.nodup hw.staffed hcan hsome ns
      rw [he]
      exact hturns

/-- The namespace stays, and time does not go back. -/
theorem Step.frame (hw : Wired ns o) (hs : Step o h o') : o'.ns = o.ns ∧ o.now ≤ o'.now := by
  cases hs with
  | write w => exact ⟨rfl, Rat.le_refl⟩
  | act m ha => exact step_frame hw.nodup hw.staffed ha.can

/-- The changes among what happens during a step are those of the notices. -/
theorem changed_mem_happenings {s : Stretch δ} {now : Rat} {ns : List (Notice Nat)}
    {k : ObjectKey} : .changed k ∈ s.happenings now ns ↔ ∃ n ∈ ns, n.key = k := by
  have hbegan : Happening.changed k ∉ if s.fresh then [.began now s.key] else [] := by
    split <;> simp
  have hended : Happening.changed k ∉ ending now s.key s.run := by
    unfold ending
    split <;> simp
  unfold Stretch.happenings
  simp [List.mem_append, hbegan, hended]

/-- Every change in the store that a step brings about is told of, and the feed loses no event other
than one that is handled. -/
theorem Step.account {number : Nat} (hw : Wired ns o)
    (hwatched : o.shared.cluster.store.WatchedBy number) (hs : Step o h o') :
    (∃ notices, Accounted number o.shared.cluster notices o'.shared.cluster ∧
      ∀ k, .changed k ∈ h ↔ ∃ n ∈ notices, n.key = k) ∨
    (∃ e, Handled e o o' ∧
      Aside o.shared.cluster { o'.shared.cluster with feed := o.shared.cluster.feed } ∧
      ∀ k, .changed k ∉ h) := by
  cases hs with
  | write w =>
    rw [runOn_callCluster]
    exact .inl ⟨_, w.accounted hwatched hw.filed, fun k => by simp⟩
  | act m ha =>
    cases ha with
    | stretch s ns hcan hsome htrail =>
      obtain ⟨cs, delays, -, -, he⟩ := step_stretch hw.nodup hw.staffed hcan hsome ns
      rw [he]
      exact .inl ⟨ns, htrail.accounted hwatched hw.filed, fun k => changed_mem_happenings⟩
    | pass hcan hnone =>
      obtain ⟨hpasses, hfeed⟩ := step_pass hw.nodup hcan hnone
      rcases hfeed with hfeed | ⟨e, hhandled⟩
      · have haside : Aside o.shared.cluster (o.step m).shared.cluster :=
          -- A step that handles no event and is no part of a reconcile gives rise to no notice.
          ⟨hpasses.aside.objects, hpasses.aside.subscriptions, hfeed, hpasses.aside.outages⟩
        exact .inl ⟨[], haside.accounted hwatched hw.filed, fun k => by simp⟩
      · exact .inr ⟨e, hhandled, hpasses.aside, fun k => by simp⟩

/-- Every step keeps an operator at work. -/
theorem Step.wired (hw : Wired ns o) (hs : Step o h o') : Wired ns o' := by
  have hturns := hs.turns hw
  obtain ⟨number, hwatched⟩ := hw.watched
  have hcontroller : ∀ c' ∈ o'.controllers, Staffed c' := by
    intro c' hc'
    obtain ⟨c, hc, ht⟩ := hturns.exists_turns hc'
    exact ht.staffed (hw.staffed c hc)
  have hserved : Served o' := hturns.map_kind.trans hw.served
  have hcluster : (∃ number, o'.shared.cluster.store.WatchedBy number) ∧
      o'.shared.cluster.store.Filed ∧ o'.feed.pending = o'.feed.events.length := by
    rcases hs.account hw hwatched with ⟨notices, ha, -⟩ | ⟨e, ⟨rest, he, hfeed, -⟩, ha, -⟩
    · -- The feed has grown by one event for each notice.
      refine ⟨⟨number, ha.watched⟩, ha.filed, ?_⟩
      have hpending : o.shared.cluster.feed.pending = o.shared.cluster.feed.events.length :=
        hw.pending
      show o'.shared.cluster.feed.pending = o'.shared.cluster.feed.events.length
      rw [ha.feed]
      simp [hpending]
    · -- One event has been handled, and it no longer counts as pending.
      refine ⟨⟨number, ha.subscriptions.trans hwatched⟩, fun k m hm => ?_, ?_⟩
      · have hobjects : o'.shared.cluster.store.objects = o.shared.cluster.store.objects :=
          ha.objects
        rw [hobjects] at hm
        exact hw.filed k m hm
      · rw [hfeed, hw.pending, he]
        simp
  obtain ⟨hw', hf', hp'⟩ := hcluster
  exact ⟨(hs.frame hw).1.trans hw.ns, hserved, hcontroller, hw', hf', hp'⟩

/-- An operator stays at work whatever happens. -/
theorem History.wired (hw : Wired ns o) (hh : History o h o') : Wired ns o' := by
  induction hh with
  | nil => exact hw
  | snoc _ hs ih => exact hs.wired ih

/-- To what is shared, a step does what a part of a reconcile does, which may be the first one, or no
reconcile has to do with it and all it does to the notes is to drop some failures. -/
theorem Step.shared_cases (hw : Wired ns o) (hs : Step o h o') :
    (Sheds o.shared o'.shared ∧ ∀ t k, .began t k ∉ h) ∨
      ∃ m s, stretch? o m = some s ∧ o'.shared = s.run.state ∧
        ∀ t k, .began t k ∈ h → s.fresh = true ∧ k = s.key := by
  cases hs with
  | write w => exact .inl ⟨⟨rfl, rfl, fun _ => id⟩, fun t k => by simp⟩
  | act m ha =>
    cases ha with
    | pass hcan hnone =>
      exact .inl ⟨(step_pass hw.nodup hcan hnone).1.sheds, fun t k => by simp⟩
    | stretch s ns hcan hsome htrail =>
      obtain ⟨cs, delays, -, -, he⟩ := step_stretch hw.nodup hw.staffed hcan hsome ns
      refine .inr ⟨m, s, hsome, by rw [he], fun t k hk => ?_⟩
      -- An end is no beginning, so the key can only have begun with the part itself.
      have hended : .began t k ∉ ending o.now s.key s.run := by
        unfold ending
        split <;> simp
      unfold Stretch.happenings at hk
      simp only [List.mem_append, hended, or_false, List.mem_map, reduceCtorEq, and_false,
        exists_false] at hk
      split at hk
      · next hfresh => exact ⟨hfresh, (Happening.began.inj (List.mem_singleton.mp hk)).2⟩
      · cases hk

/-- If there are no outages, there are none later. -/
theorem Step.outages (hw : Wired ns o) (hs : Step o h o')
    (ho : o.shared.cluster.store.outages = []) : o'.shared.cluster.store.outages = [] := by
  obtain ⟨number, hwatched⟩ := hw.watched
  rcases hs.account hw hwatched with ⟨notices, ha, -⟩ | ⟨e, -, ha, -⟩
  · exact ha.outages ho
  · exact ha.outages ho

/-- No outage is to come if none was at first. -/
theorem History.outages (hw : Wired ns o) (hh : History o h o')
    (ho : o.shared.cluster.store.outages = []) : o'.shared.cluster.store.outages = [] := by
  induction hh with
  | nil => exact ho
  | snoc hh hs ih => exact hs.outages (hh.wired hw) ih

/-! ### One object and its key -/

variable {k : ObjectKey}

/-- A step that does not change the object under a key leaves it as it is. -/
theorem Step.objectAt_eq (hw : Wired ns o) (hs : Step o h o') (hk : .changed k ∉ h) :
    objectAt k o'.shared = objectAt k o.shared := by
  obtain ⟨number, hwatched⟩ := hw.watched
  rcases hs.account hw hwatched with ⟨notices, ha, hchanged⟩ | ⟨e, -, ha, -⟩
  · exact ha.kept k fun n hn e => hk ((hchanged k).mpr ⟨n, hn, e⟩)
  · have hobjects : o'.shared.cluster.store.objects = o.shared.cluster.store.objects := ha.objects
    exact congrArg (·.find? k) hobjects

/-- A change is announced. -/
theorem Step.announced (hw : Wired ns o) (hs : Step o h o') (hk : .changed k ∈ h) :
    Announced k o' := by
  obtain ⟨number, hwatched⟩ := hw.watched
  rcases hs.account hw hwatched with ⟨notices, ha, hchanged⟩ | ⟨e, -, -, hnone⟩
  · obtain ⟨n, hn, rfl⟩ := (hchanged k).mp hk
    refine ⟨n.told, ?_, ha.named n hn⟩
    show n.told ∈ o'.shared.cluster.feed.events
    rw [ha.feed]
    exact List.mem_append_right _ (List.mem_map.mpr ⟨n, hn, rfl⟩)
  · exact absurd hk (hnone k)

/-- An event on a managed resource waits until its key is dirty. -/
theorem Step.announced_or_dirty (hw : Wired ns o) (hs : Step o h o') (hm : Managed ns k)
    (ha : Announced k o) : Announced k o' ∨ DirtyAt k o' := by
  obtain ⟨number, hwatched⟩ := hw.watched
  obtain ⟨e, he, hkey⟩ := ha
  rcases hs.account hw hwatched with ⟨notices, hacc, -⟩ | ⟨e', ⟨rest, hevents, hfeed, hcs⟩, -, -⟩
  · refine .inl ⟨e, ?_, hkey⟩
    show e ∈ o'.shared.cluster.feed.events
    rw [hacc.feed]
    exact List.mem_append_left _ he
  · rw [hevents] at he
    rcases List.mem_cons.mp he with rfl | he
    · -- It is the event that is handled.
      rw [hw.ns] at hcs
      have hopen : ∀ c ∈ (Operator.setFeed { o.feed with events := rest } o).controllers,
          c.queue.closed = false := fun c hc => (hw.staffed c hc).isOpen
      obtain ⟨c, hc, hdirty⟩ := dirty_handle_own
        (o := Operator.setFeed { o.feed with events := rest } o) hw.served hopen hm hkey
      exact .inr ⟨c, hcs ▸ hc, hdirty⟩
    · refine .inl ⟨e, ?_, hkey⟩
      rw [hfeed]
      exact he

/-- A key stays dirty over several shifts until a reconcile of it begins. -/
theorem Shifts.dirty {now : Rat} {backoff : Nat → Option Number} {s s' : Standing ObjectKey}
    (hs : Shifts now backoff k s h s') (hd : s.dirty = true) (hk : .began now k ∉ h) :
    s'.dirty = true := by
  induction hs with
  | refl => exact hd
  | step _ hshift ih =>
    rw [List.mem_append, not_or] at hk
    have hd := ih hk.1
    cases hshift with
    | none => exact hd
    | missed => exact hd
    | asked => rfl
    | fired => rfl
    | began => exact absurd (List.mem_singleton_self _) hk.2
    | ended r _ hend =>
      cases hend with
      | counted => exact hd
      | postponed _ hp =>
        cases hp with
        | dropped => exact hd
        | added => rfl
        | delayed => exact hd

/-- A key stays dirty until a reconcile of it begins. -/
theorem Step.dirty (hw : Wired ns o) (hs : Step o h o') (hd : DirtyAt k o)
    (hk : .began o.now k ∉ h) : DirtyAt k o' := by
  obtain ⟨c, hc, hdirty⟩ := hd
  obtain ⟨i, hi⟩ := List.getElem?_of_mem hc
  obtain ⟨c', hc', ht⟩ := (hs.turns hw).turns i c hi
  refine ⟨c', List.mem_of_getElem? hc', ?_⟩
  have hshifts := ht.shifts (hw.staffed c hc) k
  have hdirty' := hshifts.dirty (by simpa [standing] using hdirty) fun hmem =>
    hk (mem_of_mem_about (mem_of_mem_about hmem))
  simpa [standing] using hdirty'

/-! ### No step is left out -/

/-- Whether all that the controllers and the workers of an operator are about to do works through the
store. -/
structure Faithful (o : Operator δ) : Prop where
  reconciles : ∀ c ∈ o.controllers, ∀ k, (c.reconcile k).run.Obeys Recorded
  workers : ∀ c ∈ o.controllers, ∀ k t resume, .busy k t resume ∈ c.workers →
    ∀ w s, (resume w s).Obeys Recorded s

/-- Each part of a reconcile that comes next works through the store. -/
theorem Faithful.stretch {m : Move} {s : Stretch δ} (hf : Faithful o) (hs : stretch? o m = some s) :
    s.run.Obeys Recorded o.shared := by
  rcases stretch?_cases hs with ⟨c, hc, -, -, hrun⟩ | ⟨c, hc, -, t, resume, hmem, hrun⟩
  · rw [hrun]
    exact hf.reconciles c hc s.key o.shared
  · rw [hrun]
    exact hf.workers c hc s.key t resume hmem _ _

/-- A worker that sleeps in a reconcile has slept before, or it has fallen asleep in this step. -/
theorem Step.busy_cases (hw : Wired ns o) (hs : Step o h o') {c' : Controller δ} {k : ObjectKey}
    {t : Rat} {resume : Wake → Shared δ → Run (Shared δ) (Except Fault Bool)}
    (hc' : c' ∈ o'.controllers) (hmem : .busy k t resume ∈ c'.workers) :
    (∃ c ∈ o.controllers, .busy k t resume ∈ c.workers) ∨
      ∃ m s u d, stretch? o m = some s ∧ s.key = k ∧ s.run = .asleep u d resume := by
  cases hs with
  | write w => exact .inl ⟨c', hc', hmem⟩
  | act m ha =>
    refine (step_busy_cases hw.nodup hw.staffed ha.can hc' hmem).imp_right ?_
    exact fun ⟨s, u, d, hsome, hkey, hrun⟩ => ⟨m, s, u, d, hsome, hkey, hrun⟩

/-- Every step keeps what is about to be done working through the store. -/
theorem Step.faithful (hw : Wired ns o) (hf : Faithful o) (hs : Step o h o') : Faithful o' where
  reconciles c' hc' k := by
    obtain ⟨c, hc, ht⟩ := (hs.turns hw).exists_turns hc'
    rw [ht.sameOffice.reconcile]
    exact hf.reconciles c hc k
  workers c' hc' k t resume hmem := by
    rcases hs.busy_cases hw hc' hmem with ⟨c, hc, hmem⟩ | ⟨m, s, u, d, hsome, -, hrun⟩
    · exact hf.workers c hc k t resume hmem
    · have hobeys := hf.stretch hsome
      rw [hrun] at hobeys
      exact hobeys.2

/-- A part of a reconcile that can be carried out is told of. -/
theorem Faithful.acts_stretch {m : Move} {s : Stretch δ} (hf : Faithful o)
    (hcan : o.canStep m = true) (hs : stretch? o m = some s) :
    ∃ ns : List (Notice Nat), Acts o m (s.happenings o.now ns) := by
  obtain ⟨ns, htrail⟩ := (hf.stretch hs).state
  exact ⟨ns, .stretch s ns hcan hs htrail⟩

/-- A step that is possible at all is one of those of a history. -/
theorem Faithful.exists_step (hf : Faithful o) (m : Move) :
    o.step m = o ∨ ∃ h, Step o h (o.step m) := by
  cases hcan : o.canStep m with
  | false =>
    refine .inl ?_
    unfold Operator.step
    rw [if_neg (by simp [hcan])]
  | true =>
    cases hs : stretch? o m with
    | none => exact .inr ⟨_, .act m (.pass hcan hs)⟩
    | some s =>
      obtain ⟨ns, hacts⟩ := hf.acts_stretch hcan hs
      exact .inr ⟨_, .act m hacts⟩

/-- What an operator is about to do keeps working through the store. -/
theorem History.faithful (hw : Wired ns o) (hf : Faithful o) (hh : History o h o') :
    Faithful o' := by
  induction hh with
  | nil => exact hf
  | snoc hh hs ih => exact hs.faithful (hh.wired hw) ih

/-- Whatever an operator and those around it do next, it continues a history. -/
theorem History.continues (hw : Wired ns o) (hf : Faithful o) (hh : History o h o') (m : Move) :
    ∃ h', History o (h ++ h') (o'.step m) := by
  rcases (hh.faithful hw hf).exists_step m with he | ⟨h', hs⟩
  · exact ⟨[], by rwa [he, List.append_nil]⟩
  · exact ⟨h', hh.snoc hs⟩

end

end CatalogOperator.Proofs.Operation
