import CatalogOperator.Proofs.Activity.Stretches
import CatalogOperator.Proofs.Store.Objects

/-!
# `CatalogOperator.Proofs.Store.Changes`: every change of the store is told

What the operator, a deployer or anybody else does to the objects of the cluster it does by calls
that write to the store. A `Trail` is a sequence of such calls together with the notices they give
rise to. While one watcher is attached, the feed tells of exactly these changes.

* `Call.Obeys`: whether an operation takes the state along a relation.
* `Write`: the calls that write. `Write.alters` lists what one of them can do to the objects.
* `Trail`: what is done to a cluster through its store, with the notices in order.
* `attach_eq`: what attaching a watcher does.
* `Trail.accounted`: the notices account for every object that has changed, and the feed has grown by
  one event for each.
-/

set_option autoImplicit false

namespace CatalogOperator

namespace Call

variable {σ α β : Type}

/-- Whether an operation takes the state along a relation, whether or not it fails. -/
def Obeys (R : σ → σ → Prop) (c : Call σ α) : Prop :=
  ∀ s, R s (c.runOn s).1

variable {R : σ → σ → Prop}

/-- Returning a value changes nothing. -/
theorem Obeys.pure (hR : Sequential R) (a : α) : Call.Obeys R (pure a : Call σ α) :=
  hR.refl

/-- An operation that goes on with another one obeys if both do. -/
theorem Obeys.bind (hR : Sequential R) {c : Call σ α} {f : α → Call σ β} (h : c.Obeys R)
    (hf : ∀ a, (f a).Obeys R) : Call.Obeys R (c >>= f) := by
  intro s
  have hs := h s
  rw [runOn_bind]
  cases hc : c.runOn s with
  | mk s' r =>
    rw [hc] at hs
    cases r with
    | error e => exact hs
    | ok a => exact hR.trans hs (hf a s')

/-- An operation on a part of a larger state obeys a relation on the whole that the part accounts
for. -/
theorem Obeys.zoom {τ : Type} {get : τ → σ} {set : σ → τ → τ} {Q : τ → τ → Prop}
    (lift : ∀ whole s, R (get whole) s → Q whole (set s whole)) {c : Call σ α} (h : c.Obeys R) :
    (c.zoom get set).Obeys Q :=
  fun whole => lift whole _ (h (get whole))

end Call

namespace Store

variable {ι : Type}

/-- The subscribers to a kind of change. -/
def audience (s : Store ι) (event : StoreEvent) : List ι :=
  (s.subscriptions.filter fun e => e.1 == event).map (·.2)

/-- Whether every object stands under its own key, which can be looked up. -/
def Filed (s : Store ι) : Prop :=
  ∀ key m, s.objects.find? key = some m → keyOf m = .ok key

/-- Whether one watcher is attached and nobody else subscribes to anything. -/
def WatchedBy (number : ι) (s : Store ι) : Prop :=
  s.subscriptions = Cluster.watchedEvents.map fun event => (event, number)

/-- A watcher is told of every kind of change. -/
theorem WatchedBy.audience_eq {number : ι} {s : Store ι} (h : s.WatchedBy number)
    (event : StoreEvent) : s.audience event = [number] := by
  unfold audience
  rw [h]
  cases event <;> rfl

/-- An object of which the key is known can be looked up under it. -/
theorem keyOf_eq_ok_iff {m : Manifest} {key : ObjectKey} :
    keyOf m = .ok key ↔ m.identity? = some key ∧ key.fault? = none := by
  unfold keyOf Manifest.key?
  cases m.identity? with
  | none =>
    constructor
    · intro h
      cases h
    · rintro ⟨h, -⟩
      cases h
  | some k =>
    show k.usable? = .ok key ↔ _
    unfold ObjectKey.usable?
    cases hk : k.fault? with
    | none =>
      simp only [Except.ok.injEq, Option.some.injEq]
      constructor
      · rintro rfl
        exact ⟨rfl, hk⟩
      · exact And.left
    | some f =>
      simp only [reduceCtorEq, Option.some.injEq, false_iff, not_and]
      rintro rfl
      simp [hk]

end Store

/-- The watch event that tells of a notice. -/
def Notice.told {ι : Type} (n : Notice ι) : WatchEvent :=
  { type := .ofStore n.event, object := n.object }

/-- The calls that write to the store. -/
inductive Write where
  | create (m : Manifest)
  | update (m : Manifest)
  | delete (key : ObjectKey)

namespace Write

/-- What the call does to the store. -/
def onStore (w : Write) (s : Store Nat) : Store Nat × Except Fault (Option (Notice Nat)) :=
  match w with
  | create m => s.create m
  | update m => s.update m
  | delete key => s.delete key

/-- The call on a cluster. -/
def call {δ : Type} (w : Write) : Call (Cluster δ) Unit := do
  Cluster.announce (← Cluster.onStore w.onStore)

/-- The notice that the call gives rise to, if it changes anything. -/
def notices (w : Write) (s : Store Nat) : List (Notice Nat) :=
  match (w.onStore s).2 with
  | .ok (some n) => [n]
  | _ => []

/-- What a writing call can do to the objects, with its notices. -/
inductive Alters (s s' : Store Nat) : List (Notice Nat) → Prop
  /-- Nothing, be it that the call failed or that there was nothing to change. -/
  | nothing : s'.objects = s.objects → Alters s s' []
  /-- An object is put under its own key. -/
  | put (n : Notice Nat) : n.audience = s.audience n.event → Store.keyOf n.object = .ok n.key →
      s'.objects = s.objects.insert n.key n.object → Alters s s' [n]
  /-- An object is removed. -/
  | removed (n : Notice Nat) : n.audience = s.audience n.event →
      s.objects.find? n.key = some n.object → s'.objects = s.objects.erase n.key → Alters s s' [n]

/-- Creating, updating and deleting do nothing else. -/
theorem alters (w : Write) (s : Store Nat) : Alters s (w.onStore s).1 (w.notices s) := by
  unfold notices
  cases w with
  | create m =>
    simp only [onStore, Store.create]
    split
    · exact .nothing rfl
    · next key hkey =>
      split
      · exact .nothing rfl
      · exact .put (s.notice .added key m) rfl hkey rfl
  | update m =>
    simp only [onStore, Store.update]
    split
    -- An outage, and an object without a usable key.
    · exact .nothing rfl
    · exact .nothing rfl
    · next key _ hkey =>
      split
      · exact .nothing rfl
      · split
        · exact .nothing rfl
        · exact .put (Store.notice (s.meet .update (m.kind?.getD .null)).1 .updated key m) rfl
            hkey rfl
  | delete key =>
    simp only [onStore, Store.delete]
    split
    · exact .nothing rfl
    · split
      · exact .nothing rfl
      · next m hm => exact .removed (s.notice .deleted key m) rfl hm rfl

/-- Objects stay under their own keys. -/
theorem Alters.filed {s s' : Store Nat} {ns : List (Notice Nat)} (h : Alters s s' ns)
    (hf : s.Filed) : s'.Filed := by
  cases h with
  | nothing ho =>
    unfold Store.Filed
    rwa [ho]
  | put n _ hkey ho =>
    intro key m hm
    rw [ho, Table.find?_insert] at hm
    split at hm
    · next heq =>
      cases hm
      rw [hkey, heq]
    · exact hf key m hm
  | removed n _ _ ho =>
    intro key m hm
    rw [ho, Table.find?_erase] at hm
    split at hm
    · cases hm
    · exact hf key m hm

/-- No call subscribes anybody. -/
theorem subscriptions_onStore (w : Write) (s : Store Nat) :
    (w.onStore s).1.subscriptions = s.subscriptions := by
  cases w with
  | create m =>
    simp only [onStore, Store.create]
    split
    · rfl
    · split <;> rfl
  | update m =>
    simp only [onStore, Store.update]
    split
    · rfl
    · rfl
    · split
      · rfl
      · split <;> rfl
  | delete key =>
    simp only [onStore, Store.delete]
    split
    · rfl
    · split <;> rfl

/-- No call causes an outage. -/
theorem outages_onStore (w : Write) {s : Store Nat} (ho : s.outages = []) :
    (w.onStore s).1.outages = [] := by
  cases w with
  | create m =>
    simp only [onStore, Store.create]
    split
    · exact ho
    · split <;> exact ho
  | update m => exact Store.outages_update_of_clear ho m
  | delete key =>
    simp only [onStore, Store.delete]
    split
    · exact ho
    · split <;> exact ho

variable {δ : Type}

/-- The call leaves what the store makes of it, and the subscribers of the notice are told. -/
theorem runOn_call (w : Write) (c : Cluster δ) :
    (Call.runOn w.call c).1 = (w.notices c.store).foldl
      (fun c n => n.deliver (Cluster.watch n.event) c) { c with store := (w.onStore c.store).1 } := by
  unfold call notices
  rw [Call.runOn_bind, Cluster.runOn_onStore]
  cases h : (w.onStore c.store).2 with
  | error f => rfl
  | ok n => cases n <;> rfl

end Write

/-! ### What is done to a cluster -/

section

variable {δ : Type}

/-- Whether a cluster differs from another one in nothing that watchers are told of. -/
structure Aside (c c' : Cluster δ) : Prop where
  objects : c'.store.objects = c.store.objects
  subscriptions : c'.store.subscriptions = c.store.subscriptions
  feed : c'.feed = c.feed
  outages : c.store.outages = [] → c'.store.outages = []

/-- A cluster that stays as it is gives watchers nothing to be told of. -/
theorem Aside.refl (c : Cluster δ) : Aside c c :=
  ⟨rfl, rfl, rfl, id⟩

/-- Two differences that watchers are not told of are one. -/
theorem Aside.trans {c c' c'' : Cluster δ} (h : Aside c c') (h' : Aside c' c'') : Aside c c'' :=
  ⟨h'.objects.trans h.objects, h'.subscriptions.trans h.subscriptions, h'.feed.trans h.feed,
    fun ho => h'.outages (h.outages ho)⟩

/-- What watchers are not told of may be done one after the other. -/
theorem sequential_aside : Sequential (Aside : Cluster δ → Cluster δ → Prop) where
  refl := Aside.refl
  trans h h' := h.trans h'

/-! ### Calls that only look -/

/-- Whether an operation does nothing that watchers are told of. -/
abbrev Call.Looks {α : Type} (c : Call (Cluster δ) α) : Prop :=
  c.Obeys Aside

section

variable {α β : Type}

/-- Returning a value only looks. -/
theorem Call.Looks.pure (a : α) : Call.Looks (pure a : Call (Cluster δ) α) :=
  Obeys.pure sequential_aside a

/-- An operation that goes on with another one only looks if both do. -/
theorem Call.Looks.bind {c : Call (Cluster δ) α} {f : α → Call (Cluster δ) β} (h : c.Looks)
    (hf : ∀ a, (f a).Looks) : Call.Looks (c >>= f) :=
  Obeys.bind sequential_aside h hf

/-- A call that meets an outage or not, and leaves the store as it is besides. -/
theorem Cluster.looks_of_meet {f : Store Nat → Store Nat × Except Fault α} {call : StoreCall}
    {kind : Value} (h : ∀ s, (f s).1 = (s.meet call kind).1) :
    Call.Looks (onStore f : Call (Cluster δ) α) := by
  intro c
  have hstore : (Call.runOn (onStore f) c).1 = { c with store := (c.store.meet call kind).1 } := by
    rw [runOn_onStore, h]
  rw [hstore]
  refine ⟨rfl, rfl, rfl, fun ho => ?_⟩
  show (c.store.meet call kind).1.outages = []
  rw [Store.meet_of_clear ho]
  exact ho

/-- Reading an object only looks. -/
theorem Cluster.looks_get (key : ObjectKey) (e : Expected) :
    Call.Looks (get key e : Call (Cluster δ) (Option Manifest)) :=
  looks_of_meet fun _ => rfl

/-- Listing the objects of a kind only looks. -/
theorem Cluster.looks_list (kind : Value) :
    Call.Looks (list kind : Call (Cluster δ) (List Manifest)) :=
  looks_of_meet fun _ => rfl

/-- Setting the proxy values tells the watchers of nothing. -/
theorem Cluster.looks_setProxy (config : ProxyConfig) :
    Call.Looks (setProxy config : Call (Cluster δ) Bool) :=
  fun _ => ⟨rfl, rfl, rfl, id⟩

/-- Nor does taking them over from the cluster. -/
theorem Cluster.looks_refreshProxy : Call.Looks (refreshProxy : Call (Cluster δ) Bool) :=
  .bind (looks_get _ _) fun _ => looks_setProxy _

/-- Checking a deployment only looks. -/
theorem Cluster.looks_workloadIsStale (ns name : Value) :
    Call.Looks (workloadIsStale ns name : Call (Cluster δ) Bool) := by
  refine .bind (fun c => Aside.refl c) fun c => ?_
  dsimp only
  split
  · exact .pure _
  · exact .bind (looks_get _ _) fun m => fun c => Aside.refl c

/-- Children are looked for one after the other. -/
theorem Cluster.looks_childMissing (r : CatalogSourceConfig) :
    Call.Looks (childMissing r : Call (Cluster δ) Bool) := by
  have looks : ∀ (keys : List ObjectKey) (c : Cluster δ),
      Aside c { c with store := (c.store.anyMissing keys).1 } := by
    intro keys
    induction keys with
    | nil => exact Aside.refl
    | cons key rest ih =>
      intro c
      have hget := looks_get key .anything c
      rw [runOn_get] at hget
      unfold Store.anyMissing
      cases h : c.store.get key .anything with
      | mk s x =>
        rw [h] at hget
        cases x with
        | error f => exact hget
        | ok m =>
          cases m with
          | none => exact hget
          | some m => exact hget.trans (ih { c with store := s })
  exact looks r.children

end

/-! ### Trails -/

/-- What is done to a cluster: calls that write to the store, and anything aside from them. The
notices of the calls are kept in order. -/
inductive Trail : Cluster δ → List (Notice Nat) → Cluster δ → Prop
  | refl (c : Cluster δ) : Trail c [] c
  | write {c c' : Cluster δ} {ns : List (Notice Nat)} (w : Write) : Trail c ns c' →
      Trail c (ns ++ w.notices c'.store) (Call.runOn w.call c').1
  | aside {c c' c'' : Cluster δ} {ns : List (Notice Nat)} : Trail c ns c' → Aside c' c'' →
      Trail c ns c''

/-- A trail goes on with another one. -/
theorem Trail.trans {c c' c'' : Cluster δ} {ns ns' : List (Notice Nat)} (h : Trail c ns c')
    (h' : Trail c' ns' c'') : Trail c (ns ++ ns') c'' := by
  induction h' with
  | refl => rwa [List.append_nil]
  | write w _ ih =>
    rw [← List.append_assoc]
    exact ih.write w
  | aside _ ha ih => exact ih.aside ha

/-- What watchers are not told of leaves no notices. -/
theorem Aside.trail {c c' : Cluster δ} (h : Aside c c') : Trail c [] c' :=
  (Trail.refl c).aside h

/-- One call that writes. -/
theorem Write.trail (w : Write) (c : Cluster δ) :
    Trail c (w.notices c.store) (Call.runOn w.call c).1 :=
  (Trail.refl c).write w

/-- Announcing what a call has done leaves the store as the call has left it. -/
theorem Write.store_call (w : Write) (c : Cluster δ) :
    (Call.runOn w.call c).1.store = (w.onStore c.store).1 := by
  have hannounced : ∀ (ns : List (Notice Nat)) (c : Cluster δ),
      (ns.foldl (fun c n => n.deliver (Cluster.watch n.event) c) c).store = c.store := by
    intro ns
    induction ns with
    | nil => exact fun _ => rfl
    | cons n rest ih =>
      intro c
      rw [List.foldl_cons, ih, Cluster.store_deliver]
  rw [w.runOn_call c, hannounced]

/-- A writing call keeps every object under its own key. -/
theorem Write.filed_call {c : Cluster δ} (w : Write) (hf : c.store.Filed) :
    (Call.runOn w.call c).1.store.Filed := by
  rw [w.store_call c]
  exact (w.alters c.store).filed hf

/-- Whatever is done through the store, objects stay under their own keys. -/
theorem Trail.filed {c c' : Cluster δ} {ns : List (Notice Nat)} (h : Trail c ns c')
    (hf : c.store.Filed) : c'.store.Filed := by
  induction h with
  | refl => exact hf
  | write w _ ih => exact w.filed_call ih
  | aside _ ha ih => exact fun key m hm => ih key m (by rwa [ha.objects] at hm)

/-! ### Attaching -/

/-- The event that announces an object already there. -/
def arrival (m : Manifest) : WatchEvent :=
  { type := .create, object := m }

/-- Objects already there are published one after the other. -/
theorem flushTo_eq (number : Nat) (es : List (ObjectKey × Manifest)) (c : Cluster δ) :
    (flushTo number (Cluster.watch .added) es c).1 = { c with feed :=
      { events := c.feed.events ++ es.map fun e => arrival e.2
        pending := c.feed.pending + es.length } } := by
  induction es generalizing c with
  | nil => simp [flushTo]
  | cons e rest ih =>
    obtain ⟨k, m⟩ := e
    have hfirst : flushTo number (Cluster.watch .added) ((k, m) :: rest) c =
        flushTo number (Cluster.watch .added) rest (c.publish (arrival m)) := rfl
    rw [hfirst, ih]
    simp [Cluster.publish, Feed.publish]
    omega

/-- A watcher that attaches to a store subscribes to every kind of change, and the objects already
there are announced. -/
theorem attach_eq (c : Cluster δ) :
    c.attach.1 = { c with
      store := { c.store with
        subscriptions := c.store.subscriptions ++
          Cluster.watchedEvents.map fun event => (event, c.watchers) }
      watchers := c.watchers + 1
      feed :=
        { events := c.feed.events ++ c.store.objects.entries.map fun e => arrival e.2
          pending := c.feed.pending + c.store.objects.entries.length } } := by
  unfold Cluster.attach
  dsimp only
  rw [flushTo_eq]
  simp [Cluster.watchedEvents, Store.subscribe]

/-! ### Accounts -/

/-- Whether notices account for what has become of a watched cluster: each tells of an object under
its own key, the feed has grown by one event for each, and an object that none of them is about is
as it was. -/
structure Accounted (number : Nat) (c : Cluster δ) (ns : List (Notice Nat)) (c' : Cluster δ) :
    Prop where
  watched : c'.store.WatchedBy number
  filed : c'.store.Filed
  outages : c.store.outages = [] → c'.store.outages = []
  named : ∀ n ∈ ns, Store.keyOf n.object = .ok n.key
  feed : c'.feed =
    { events := c.feed.events ++ ns.map Notice.told, pending := c.feed.pending + ns.length }
  kept : ∀ key, (∀ n ∈ ns, n.key ≠ key) →
    c'.store.objects.find? key = c.store.objects.find? key

variable {number : Nat} {c c' c'' : Cluster δ} {ns ns' : List (Notice Nat)}

/-- No notices account for a cluster that stays as it is. -/
theorem Accounted.refl (hw : c.store.WatchedBy number) (hf : c.store.Filed) :
    Accounted number c [] c where
  watched := hw
  filed := hf
  outages := id
  named n hn := by cases hn
  feed := by simp
  kept _ _ := rfl

/-- Notices account for two changes in a row. -/
theorem Accounted.trans (h : Accounted number c ns c') (h' : Accounted number c' ns' c'') :
    Accounted number c (ns ++ ns') c'' where
  watched := h'.watched
  filed := h'.filed
  outages ho := h'.outages (h.outages ho)
  named n hn := by
    rcases List.mem_append.mp hn with hn | hn
    · exact h.named n hn
    · exact h'.named n hn
  feed := by
    rw [h'.feed, h.feed]
    simp [Nat.add_assoc]
  kept key hk := by
    rw [h'.kept key fun n hn => hk n (List.mem_append_right _ hn),
      h.kept key fun n hn => hk n (List.mem_append_left _ hn)]

/-- No notices account for what watchers are not told of. -/
theorem Aside.accounted (hw : c.store.WatchedBy number) (hf : c.store.Filed) (h : Aside c c') :
    Accounted number c [] c' where
  watched := h.subscriptions.trans hw
  filed key m hm := hf key m (by rwa [h.objects] at hm)
  outages := h.outages
  named n hn := by cases hn
  feed := by
    rw [h.feed]
    simp
  kept key _ := by rw [h.objects]

/-- The one watcher publishes an event. -/
theorem Notice.deliver_of_single {n : Notice Nat} (h : n.audience = [number]) (c : Cluster δ) :
    n.deliver (Cluster.watch n.event) c = c.publish n.told := by
  unfold Notice.deliver
  rw [h]
  rfl

/-- A call that writes is accounted for by its notice. -/
theorem Write.accounted (hw : c.store.WatchedBy number) (hf : c.store.Filed) (w : Write) :
    Accounted number c (w.notices c.store) (Call.runOn w.call c).1 := by
  have hsub := w.subscriptions_onStore c.store
  have hout : c.store.outages = [] → (w.onStore c.store).1.outages = [] :=
    fun ho => w.outages_onStore ho
  have halters := w.alters c.store
  have hfiled := halters.filed hf
  rw [w.runOn_call c]
  generalize w.notices c.store = ns at halters ⊢
  cases halters with
  | nothing ho =>
    exact Aside.accounted hw hf ⟨ho, hsub, rfl, hout⟩
  | put n ha hkey ho =>
    -- What stands under the key of the notice is the object that it names.
    rw [List.foldl_cons, List.foldl_nil, n.deliver_of_single (ha.trans (hw.audience_eq _))]
    exact {
      watched := hsub.trans hw
      filed := hfiled
      outages := hout
      named := fun n' hn' => by rwa [List.mem_singleton.mp hn']
      feed := rfl
      kept := fun key hk => by
        show (w.onStore c.store).1.objects.find? key = _
        rw [ho, Table.find?_insert, if_neg (hk n (List.mem_singleton_self n))] }
  | removed n ha hfound ho =>
    rw [List.foldl_cons, List.foldl_nil, n.deliver_of_single (ha.trans (hw.audience_eq _))]
    exact {
      watched := hsub.trans hw
      filed := hfiled
      outages := hout
      named := fun n' hn' => by
        rw [List.mem_singleton.mp hn']
        exact hf n.key n.object hfound
      feed := rfl
      kept := fun key hk => by
        show (w.onStore c.store).1.objects.find? key = _
        rw [ho, Table.find?_erase, if_neg (hk n (List.mem_singleton_self n))] }

/-- The notices of a trail account for all that was done to the cluster. -/
theorem Trail.accounted (hw : c.store.WatchedBy number) (hf : c.store.Filed) (h : Trail c ns c') :
    Accounted number c ns c' := by
  induction h with
  | refl => exact .refl hw hf
  | write w _ ih => exact ih.trans (w.accounted ih.watched ih.filed)
  | aside _ ha ih => simpa using ih.trans (ha.accounted ih.watched ih.filed)

end

end CatalogOperator
