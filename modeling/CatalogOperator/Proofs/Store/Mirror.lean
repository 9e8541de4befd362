import CatalogOperator.Proofs.Store.Changes

/-!
# `CatalogOperator.Proofs.Store.Mirror`: a watcher can rebuild the store

A watcher that attaches to the store is told of the objects already there and of every change from
then on. Whoever replays these events on an empty table has the content of the store at any time,
in the order in which it is listed.

The calls are those of the store alone. Nobody subscribes to it but the one watcher.

* `replay`: the table that events lead to.
* `Write.Outcome`: all that can come of a call that writes.
* `Mirrors`: the events published since the watcher attached lead to the content of the store.
* `mirrored`: they do after every sequence of calls, and a call publishes an event exactly if it
  changes something.
-/

set_option autoImplicit false

namespace CatalogOperator

/-! ### Tables -/

namespace Table

variable {κ α : Type} [DecidableEq κ]

/-- An entry under a key that is new goes to the end. -/
theorem put_of_absent {key : κ} (value : α) {es : List (κ × α)} (h : key ∉ es.map (·.1)) :
    put key value es = es ++ [(key, value)] := by
  induction es with
  | nil => rfl
  | cons e rest ih =>
    rw [List.map_cons, List.mem_cons, not_or] at h
    rw [put, if_neg fun he => h.1 he.symm, ih h.2]
    rfl

end Table

/-! ### Replaying events -/

/-- What an event does to a table of objects: a created or updated object is put under its key, a
deleted one is taken out. -/
def WatchEvent.replayed (t : Table ObjectKey Manifest) (e : WatchEvent) :
    Except Fault (Table ObjectKey Manifest) :=
  match e.type with
  | .create => (Store.keyOf e.object).map fun key => t.insert key e.object
  | .update => (Store.keyOf e.object).map fun key => t.insert key e.object
  | .delete => (Store.keyOf e.object).map t.erase
  | .generic => .ok t

/-- The table that events lead to, one after the other, from the empty one. -/
def replay (events : List WatchEvent) : Except Fault (Table ObjectKey Manifest) :=
  events.foldlM WatchEvent.replayed Table.empty

/-- A further event is replayed on what the ones before led to. -/
theorem replay_snoc {events : List WatchEvent} {t : Table ObjectKey Manifest}
    (h : replay events = .ok t) (e : WatchEvent) : replay (events ++ [e]) = e.replayed t := by
  unfold replay at h ⊢
  rw [List.foldlM_append, h]
  exact bind_pure (e.replayed t)

/-- A feed with further events published to it. -/
def Feed.published (f : Feed) (events : List WatchEvent) : Feed :=
  events.foldl Feed.publish f

/-- Published events wait at the end of the feed and are pending. -/
theorem Feed.published_eq (f : Feed) (events : List WatchEvent) :
    f.published events =
      { events := f.events ++ events, pending := f.pending + events.length } := by
  unfold published
  induction events generalizing f with
  | nil => simp
  | cons e rest ih =>
    rw [List.foldl_cons, ih]
    simp [publish]
    omega

/-! ### What comes of a call -/

namespace Write

/-- All that can come of a call that writes. A failed call and an update with an equal object leave
the store as it is, but for the outages to come. -/
inductive Outcome (s : Store Nat) :
    Write → Store Nat × Except Fault (Option (Notice Nat)) → Prop
  | refused (w : Write) (f : Fault) (outages : List Outage) :
      Outcome s w ({ s with outages }, .error f)
  | equal {m existing : Manifest} {key : ObjectKey} (outages : List Outage) :
      Store.keyOf m = .ok key → s.objects.find? key = some existing → existing.same m = true →
      Outcome s (update m) ({ s with outages }, .ok none)
  | created {m : Manifest} {key : ObjectKey} : Store.keyOf m = .ok key →
      s.objects.find? key = none →
      Outcome s (create m)
        ({ s with objects := s.objects.insert key m }, .ok (some (s.notice .added key m)))
  | updated {m existing : Manifest} {key : ObjectKey} (outages : List Outage) :
      Store.keyOf m = .ok key → s.objects.find? key = some existing → existing.same m = false →
      Outcome s (update m)
        ({ s with objects := s.objects.insert key m, outages },
          .ok (some (s.notice .updated key m)))
  | deleted {m : Manifest} {key : ObjectKey} : s.objects.find? key = some m →
      Outcome s (delete key)
        ({ s with objects := s.objects.erase key }, .ok (some (s.notice .deleted key m)))

/-- Nothing else comes of it. -/
theorem outcome (w : Write) (s : Store Nat) : Outcome s w (w.onStore s) := by
  cases w with
  | create m =>
    simp only [onStore, Store.create]
    split
    · exact .refused _ _ s.outages
    · next key hkey =>
      split
      · exact .refused _ _ s.outages
      · next hnew => exact .created hkey (by simpa [Table.contains] using hnew)
  | update m =>
    simp only [onStore, Store.update]
    split
    -- An outage, and an object without a usable key.
    · exact .refused _ _ _
    · exact .refused _ _ _
    · next key _ hkey =>
      split
      · exact .refused _ _ _
      · next existing hfound =>
        split
        · next hsame => exact .equal _ hkey hfound hsame
        · next hsame => exact .updated _ hkey hfound (by simpa using hsame)
  | delete key =>
    simp only [onStore, Store.delete]
    split
    · exact .refused _ _ s.outages
    · split
      · exact .refused _ _ s.outages
      · next m hm => exact .deleted hm

/-- Whether a call is an update with an object equal to the one already there. -/
def IsEqualUpdate (w : Write) (s : Store Nat) : Prop :=
  ∃ m existing key, w = update m ∧ Store.keyOf m = .ok key ∧
    s.objects.find? key = some existing ∧ existing.same m = true

/-- The event that tells of what a call does to the store. -/
inductive Tells (s : Store Nat) : Write → WatchEvent → Prop
  | created (m : Manifest) : Tells s (create m) { type := .create, object := m }
  | updated (m : Manifest) : Tells s (update m) { type := .update, object := m }
  | deleted {m : Manifest} {key : ObjectKey} : s.objects.find? key = some m →
      Tells s (delete key) { type := .delete, object := m }

variable {δ : Type}

/-- Whether there is nothing to tell of a call: it fails, or it is an update with an equal
object. -/
def Quiet (w : Write) (c : Cluster δ) : Prop :=
  (∃ f, (Call.runOn w.call c).2 = .error f) ∨ w.IsEqualUpdate c.store

/-- A call with nothing to tell of leaves the cluster as it is, but for the outages to come. Any
other call succeeds and gives rise to one notice, and replaying what it tells leads from the objects
before the call to those after it. -/
theorem quiet_or_tells (w : Write) (c : Cluster δ) :
    (w.Quiet c ∧
        ∃ outages, (Call.runOn w.call c).1 = { c with store := { c.store with outages } }) ∨
      ¬w.Quiet c ∧ ∃ (n : Notice Nat) (objects : Table ObjectKey Manifest)
        (outages : List Outage), n.audience = c.store.audience n.event ∧ w.Tells c.store n.told ∧
          (c.store.Filed → n.told.replayed c.store.objects = .ok objects) ∧
          (Call.runOn w.call c).1 = n.deliver (Cluster.watch n.event)
            { c with store := { c.store with objects, outages } } := by
  have houtcome := w.outcome c.store
  have hrun : Call.runOn w.call c = Call.runOn
      (Cluster.onStore w.onStore >>= fun n => Cluster.announce n) c := rfl
  unfold Quiet
  rw [hrun, Call.runOn_bind, Cluster.runOn_onStore]
  generalize w.onStore c.store = out at houtcome ⊢
  cases houtcome with
  | refused w f outages => exact .inl ⟨.inl ⟨f, rfl⟩, outages, rfl⟩
  | equal outages hkey hfound hsame =>
    exact .inl ⟨.inr ⟨_, _, _, rfl, hkey, hfound, hsame⟩, outages, rfl⟩
  | @created m key hkey _ =>
    refine .inr ⟨?_, c.store.notice .added key m, _, c.store.outages, rfl, .created m,
      fun _ => ?_, rfl⟩
    · rintro (⟨f, hf⟩ | ⟨_, _, _, hw, -⟩)
      · cases hf
      · cases hw
    · show (Store.keyOf m).map _ = _
      rw [hkey]
      rfl
  | @updated m existing key outages hkey hfound hsame =>
    refine .inr ⟨?_, c.store.notice .updated key m, _, outages, rfl, .updated m,
      fun _ => ?_, rfl⟩
    · rintro (⟨f, hf⟩ | ⟨_, other, _, hw, hkey', hother, hsame'⟩)
      · cases hf
      · -- There is but one object under the key.
        cases hw
        rw [hkey] at hkey'
        cases hkey'
        rw [hfound] at hother
        cases hother
        rw [hsame] at hsame'
        cases hsame'
    · show (Store.keyOf m).map _ = _
      rw [hkey]
      rfl
  | @deleted m key hfound =>
    refine .inr ⟨?_, c.store.notice .deleted key m, _, c.store.outages, rfl, .deleted hfound,
      fun hf => ?_, rfl⟩
    · rintro (⟨f, hf⟩ | ⟨_, _, _, hw, -⟩)
      · cases hf
      · cases hw
    · show (Store.keyOf m).map _ = _
      rw [hf key m hfound]
      rfl

/-- A call of which there is nothing to tell leaves all but the outages as it was. -/
theorem unchanged_of_quiet {w : Write} {c : Cluster δ} (h : w.Quiet c) :
    ∃ outages, (Call.runOn w.call c).1 = { c with store := { c.store with outages } } := by
  rcases w.quiet_or_tells c with ⟨-, hrun⟩ | ⟨htells, -⟩
  · exact hrun
  · exact absurd h htells

end Write

/-! ### Sequences of calls -/

/-- Without outages, all objects are listed in the order of the table. -/
theorem Cluster.list_of_clear {δ : Type} {c : Cluster δ} (ho : c.store.outages = []) :
    (Call.runOn (Cluster.list .null) c).2 = .ok c.store.objects.values := by
  have hall : (c.store.objects.values.filter fun m =>
      Value.null == .null || (m.kind?.getD .null).same .null) = c.store.objects.values :=
    List.filter_eq_self.2 fun _ _ => rfl
  unfold Cluster.list Store.list
  rw [runOn_onStore, Store.meet_of_clear ho]
  exact congrArg Except.ok hall

section

variable {δ : Type} {c start : Cluster δ} {number : Nat}

/-- The cluster after calls, some of which may have failed. -/
def performed (ws : List Write) (c : Cluster δ) : Cluster δ :=
  ws.foldl (fun c w => (Call.runOn w.call c).1) c

-- The calls that write are those of the cluster.
example (m : Manifest) (key : ObjectKey) :
    (Write.create m).call = (Cluster.create m : Call (Cluster δ) Unit) ∧
      (Write.update m).call = (Cluster.update m : Call (Cluster δ) Unit) ∧
      (Write.delete key).call = (Cluster.delete key : Call (Cluster δ) Unit) :=
  ⟨rfl, rfl, rfl⟩

/-- Whether nobody has subscribed to a store in which every object stands under its own key. -/
structure Unheard (c : Cluster δ) : Prop where
  silent : c.store.subscriptions = []
  filed : c.store.Filed

/-- Of a call that is made while nobody has subscribed, nobody is told. -/
theorem Unheard.step (h : Unheard c) (w : Write) :
    Unheard (Call.runOn w.call c).1 ∧ (Call.runOn w.call c).1.feed = c.feed := by
  rcases w.quiet_or_tells c with ⟨-, outages, hrun⟩ |
    ⟨-, n, objects, outages, haudience, -, -, hrun⟩
  · rw [hrun]
    exact ⟨⟨h.silent, h.filed⟩, rfl⟩
  · have hnobody : n.audience = [] := by
      rw [haudience, Store.audience, h.silent]
      rfl
    have hdeliver : n.deliver (Cluster.watch n.event)
        { c with store := { c.store with objects, outages } } =
          { c with store := { c.store with objects, outages } } := by
      unfold Notice.deliver
      rw [hnobody]
      rfl
    refine ⟨⟨?_, w.filed_call h.filed⟩, ?_⟩
    · rw [hrun, hdeliver]
      exact h.silent
    · rw [hrun, hdeliver]

/-- Whatever is done while nobody has subscribed, nothing is published. -/
theorem Unheard.performed (h : Unheard c) (ws : List Write) :
    Unheard (performed ws c) ∧ (performed ws c).feed = c.feed := by
  induction ws generalizing c with
  | nil => exact ⟨h, rfl⟩
  | cons w rest ih =>
    obtain ⟨hstep, hfeed⟩ := h.step w
    obtain ⟨hrest, hfeed'⟩ := ih hstep
    exact ⟨hrest, hfeed'.trans hfeed⟩

/-- Whether one watcher is attached, and the events published since some start lead to the objects
of the store. -/
structure Mirrors (number : Nat) (start c : Cluster δ) : Prop where
  watched : c.store.WatchedBy number
  filed : c.store.Filed
  replayed : ∃ events, c.feed = start.feed.published events ∧ replay events = .ok c.store.objects

/-- A call that is worth telling of publishes one event. -/
theorem Mirrors.published (h : Mirrors number start c) (w : Write) (hw : ¬w.Quiet c) :
    ∃ e, w.Tells c.store e ∧ (Call.runOn w.call c).1.feed = c.feed.publish e ∧
      e.replayed c.store.objects = .ok (Call.runOn w.call c).1.store.objects := by
  rcases w.quiet_or_tells c with ⟨hquiet, -⟩ |
    ⟨-, n, objects, outages, haudience, htells, hreplay, hrun⟩
  · exact absurd hquiet hw
  · have hdeliver := n.deliver_of_single (haudience.trans (h.watched.audience_eq n.event))
      { c with store := { c.store with objects, outages } }
    rw [hdeliver] at hrun
    rw [hrun]
    exact ⟨n.told, htells, rfl, hreplay h.filed⟩

/-- The mirror follows every call. -/
theorem Mirrors.step (h : Mirrors number start c) (w : Write) :
    Mirrors number start (Call.runOn w.call c).1 where
  watched := by
    have hstore := congrArg Store.subscriptions (w.store_call c)
    exact (hstore.trans (w.subscriptions_onStore c.store)).trans h.watched
  filed := w.filed_call h.filed
  replayed := by
    obtain ⟨events, hfeed, hreplay⟩ := h.replayed
    by_cases hw : w.Quiet c
    · obtain ⟨outages, hrun⟩ := Write.unchanged_of_quiet hw
      rw [hrun]
      exact ⟨events, hfeed, hreplay⟩
    · obtain ⟨e, -, hpublished, hreplayed⟩ := h.published w hw
      refine ⟨events ++ [e], ?_, ?_⟩
      · rw [hpublished, hfeed]
        simp [Feed.published]
      · rw [replay_snoc hreplay, hreplayed]

/-- The mirror follows every sequence of calls. -/
theorem Mirrors.performed (h : Mirrors number start c) (ws : List Write) :
    Mirrors number start (performed ws c) := by
  induction ws generalizing c with
  | nil => exact h
  | cons w rest ih => exact ih (h.step w)

/-! ### Attaching and detaching -/

/-- Objects that come in one after the other, each under its own key, are put behind those that are
there. -/
theorem replayed_arrivals (es : List (ObjectKey × Manifest)) (t : Table ObjectKey Manifest)
    (hnodup : ((t.entries ++ es).map (·.1)).Nodup)
    (hkeys : ∀ e ∈ es, Store.keyOf e.2 = .ok e.1) :
    (es.map fun e => arrival e.2).foldlM WatchEvent.replayed t = .ok ⟨t.entries ++ es, hnodup⟩ := by
  induction es generalizing t with
  | nil => exact congrArg Except.ok (Table.ext (by simp))
  | cons e rest ih =>
    obtain ⟨hkey, hrest⟩ := List.forall_mem_cons.1 hkeys
    have hreplayed : (arrival e.2).replayed t = .ok (t.insert e.1 e.2) := by
      show (Store.keyOf e.2).map _ = _
      rw [hkey]
      rfl
    -- The object that arrives is the first one under its key, so it stands at the end.
    have hnew : e.1 ∉ t.entries.map (·.1) := by
      intro hmem
      rw [List.map_append, List.nodup_append] at hnodup
      exact hnodup.2.2 e.1 hmem e.1 List.mem_cons_self rfl
    have hentries : (t.insert e.1 e.2).entries = t.entries ++ [e] := Table.put_of_absent e.2 hnew
    rw [List.map_cons, List.foldlM_cons, hreplayed]
    have hnodup' : (((t.insert e.1 e.2).entries ++ rest).map (·.1)).Nodup := by
      rw [hentries]
      simpa using hnodup
    refine (ih (t.insert e.1 e.2) hnodup' hrest).trans (congrArg Except.ok (Table.ext ?_))
    simp [hentries]

/-- A watcher that attaches while nobody has subscribed mirrors the store from then on. -/
theorem Unheard.attach (h : Unheard c) : Mirrors c.attach.2 c c.attach.1 := by
  have hkeys : ∀ e ∈ c.store.objects.entries, Store.keyOf e.2 = .ok e.1 :=
    fun e he => h.filed e.1 e.2 (Table.find?_of_mem he)
  rw [attach_eq]
  refine ⟨?_, h.filed, c.store.objects.entries.map fun e => arrival e.2, ?_, ?_⟩
  · show c.store.subscriptions ++ _ = _
    rw [h.silent]
    rfl
  · rw [Feed.published_eq, List.length_map]
  · exact replayed_arrivals c.store.objects.entries Table.empty c.store.objects.nodup hkeys

/-- Once the only watcher is detached, nobody is told any more. -/
theorem Mirrors.detach (h : Mirrors number start c) : Unheard (c.detach number) where
  silent := by
    have hwatched : c.store.subscriptions = _ := h.watched
    unfold Cluster.detach
    simp [Cluster.watchedEvents, Store.unsubscribe, hwatched]
  filed := h.filed

/-- The cluster with a store nobody has used yet. -/
def vacated (c : Cluster δ) : Cluster δ :=
  { c with store := { outages := c.store.outages } }

/-- Nobody has subscribed to an unused store. -/
theorem unheard_vacated (c : Cluster δ) : Unheard (vacated c) where
  silent := rfl
  filed key m hm := by cases hm

/-- Calls may be made before a watcher attaches, while it is attached and after it is detached. The
events published while it is attached lead to the content of the store, at any time, in the order in
which the objects are listed. A call that fails, and an update with an equal object, changes nothing
and tells nothing. While the watcher is attached any other call publishes one event, which tells
what the call has done. Once it is detached no event is published. -/
theorem mirrored (c : Cluster δ) (before after : List Write) :
    let start := performed before (vacated c)
    let now := performed after start.attach.1
    (∃ events, now.feed = start.feed.published events ∧ replay events = .ok now.store.objects ∧
        (now.store.outages = [] →
          (Call.runOn (Cluster.list .null) now).2 = .ok now.store.objects.values)) ∧
      (∀ (w : Write) (d : Cluster δ), w.Quiet d →
        ∃ outages, (Call.runOn w.call d).1 = { d with store := { d.store with outages } }) ∧
      (∀ w : Write, ¬w.Quiet now →
        ∃ e, w.Tells now.store e ∧ (Call.runOn w.call now).1.feed = now.feed.publish e) ∧
      ∀ rest, (performed rest (now.detach start.attach.2)).feed = now.feed := by
  intro start now
  have hstart : Unheard start := ((unheard_vacated c).performed before).1
  have hnow : Mirrors start.attach.2 start now := hstart.attach.performed after
  refine ⟨?_, fun w d hw => Write.unchanged_of_quiet hw, fun w hw => ?_, fun rest => ?_⟩
  · obtain ⟨events, hfeed, hreplay⟩ := hnow.replayed
    exact ⟨events, hfeed, hreplay, Cluster.list_of_clear⟩
  · obtain ⟨e, htells, hfeed, -⟩ := hnow.published w hw
    exact ⟨e, htells, hfeed⟩
  · exact (hnow.detach.performed rest).2

end

/-- The cluster proxy with a value. -/
def proxyWith (http : String) : Manifest :=
  .proxy { status := { http := .text http } }

/-- A watcher attaches after the proxy has been created and sees how its value changes. A second
creation fails and is not told. Once the proxy is deleted, the watcher is told of that too. -/
theorem mirrored_proxy :
    let start := performed [.create (proxyWith "a")] (vacated { surroundings := () })
    let now := performed [.update (proxyWith "b"), .create (proxyWith "c")] start.attach.1
    now.feed.events = [arrival (proxyWith "a"), { type := .update, object := proxyWith "b" }] ∧
      (∃ events, now.feed = start.feed.published events ∧ replay events = .ok now.store.objects) ∧
      (Call.runOn (Cluster.list .null) now).2 = .ok [proxyWith "b"] ∧
      ∃ e, (Write.delete Cluster.proxyKey).Tells now.store e := by
  intro start now
  obtain ⟨⟨events, hfeed, hreplay, hlist⟩, -, htells, -⟩ :=
    mirrored { surroundings := () } [.create (proxyWith "a")]
      [.update (proxyWith "b"), .create (proxyWith "c")]
  have hdeleted : ¬(Write.delete Cluster.proxyKey).Quiet now := by
    rintro (⟨f, hf⟩ | ⟨_, _, _, hw, -⟩)
    · exact absurd (show Except.ok () = Except.error f from hf) nofun
    · cases hw
  obtain ⟨e, he, -⟩ := htells _ hdeleted
  refine ⟨by decide +kernel, ⟨events, hfeed, hreplay⟩, ?_, e, he⟩
  exact (hlist (by decide +kernel)).trans (congrArg Except.ok (by decide +kernel))

end CatalogOperator
