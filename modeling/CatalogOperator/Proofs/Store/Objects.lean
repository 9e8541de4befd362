import CatalogOperator.Cluster

/-!
# `CatalogOperator.Proofs.Store.Objects`: what store calls do to the objects

Reading from the cluster leaves its objects as they are. Of the writing calls only the update
matters to a reconcile: it changes the object under the key of what it is given, provided there is
one that does not count as equal, and it changes nothing else. Announcing a change only adds to the
feed.

* `Call.Keeps`: whether an operation leaves a view of the state as it was. It holds of a sequence
  when it holds of the parts.
* `Cluster.keeps_get`, `Cluster.keeps_workloadIsStale`, `Cluster.keeps_childMissing`: the reads.
* `Cluster.get_eq_ok`: what a read tells.
* `Cluster.update_cases`: how an update can come out.
* `Cluster.get_of_clear`, `Cluster.update_of_clear`: calls that meet no outage.
-/

set_option autoImplicit false

namespace CatalogOperator

namespace Call

variable {σ α β γ : Type}

/-- Whether an operation leaves a view of the state as it was. -/
def Keeps (view : σ → γ) (c : Call σ α) : Prop :=
  ∀ s, view (c.runOn s).1 = view s

/-- The second operation of a sequence is run on what the first one left, unless that failed. -/
theorem runOn_bind (c : Call σ α) (f : α → Call σ β) (s : σ) :
    (c >>= f).runOn s =
      match c.runOn s with
      | (s', .ok a) => (f a).runOn s'
      | (s', .error e) => (s', .error e) := by
  show Call.runOn (ExceptT.bind c f) s = _
  unfold Call.runOn ExceptT.bind ExceptT.mk
  simp only [bind, StateT.bind]
  cases h : c s with
  | mk r s' => cases r <;> rfl

variable {view : σ → γ}

/-- Returning a value leaves any view as it was. -/
theorem Keeps.pure (a : α) : Call.Keeps view (pure a : Call σ α) :=
  fun _ => rfl

/-- An operation that goes on with another one leaves a view as it was if both do. -/
theorem Keeps.bind {c : Call σ α} {f : α → Call σ β} (h : c.Keeps view)
    (hf : ∀ a, (f a).Keeps view) : Call.Keeps view (c >>= f) := by
  intro s
  have hs := h s
  rw [runOn_bind]
  cases hc : c.runOn s with
  | mk s' r =>
    rw [hc] at hs
    cases r with
    | error e => exact hs
    | ok a => exact (hf a s').trans hs

end Call

namespace Store

variable {ι : Type}

/-- Meeting an outage changes no object. -/
@[simp] theorem objects_meet (s : Store ι) (call : StoreCall) (kind : Value) :
    (s.meet call kind).1.objects = s.objects :=
  rfl

/-- Reading an object changes none. -/
@[simp] theorem objects_get (s : Store ι) (key : ObjectKey) (e : Expected) :
    (s.get key e).1.objects = s.objects :=
  rfl

/-- Looking for missing objects reads one after the other. -/
theorem objects_anyMissing (s : Store ι) (keys : List ObjectKey) :
    (s.anyMissing keys).1.objects = s.objects := by
  induction keys generalizing s with
  | nil => rfl
  | cons key rest ih =>
    -- The next one is read only if this one is there.
    have hs := objects_get s key .anything
    unfold anyMissing
    cases hget : s.get key .anything with
    | mk s' r =>
      rw [hget] at hs
      cases r with
      | error f => exact hs
      | ok m =>
        cases m with
        | none => exact hs
        | some m => exact (ih s').trans hs

/-- A read that does not fail tells what stands under the key. -/
theorem get_eq_ok {s s' : Store ι} {key : ObjectKey} {e : Expected} {m : Option Manifest}
    (h : s.get key e = (s', .ok m)) : s.objects.find? key = m := by
  unfold get at h
  simp only [Prod.mk.injEq] at h
  obtain ⟨-, h⟩ := h
  split at h
  · cases h
  · cases h
  · split at h
    · rename_i hmissing
      cases h
      exact hmissing
    · rename_i existing hfound
      -- An object that is not as expected is a failure.
      split at h
      · cases h
        exact hfound
      · cases h

/-- A read tells of nothing but what is expected. -/
theorem admits_of_get {s : Store ι} {key : ObjectKey} {e : Expected} {m : Manifest}
    (h : (s.get key e).2 = .ok (some m)) : e.admits m = true := by
  unfold get at h
  dsimp only at h
  split at h
  · cases h
  · cases h
  · split at h
    · cases h
    · split at h
      · next hadmits =>
        cases h
        exact hadmits
      · cases h

/-- Where there is no object, it does not matter what is expected of it. -/
theorem get_of_absent {s : Store ι} {key : ObjectKey} (hm : s.objects.find? key = none)
    (e : Expected) : s.get key e = s.get key := by
  unfold get
  dsimp only [objects_meet]
  rw [hm]

/-- Without outages, a call meets none. -/
theorem meet_of_clear {s : Store ι} (ho : s.outages = []) (call : StoreCall) (kind : Value) :
    s.meet call kind = (s, none) := by
  unfold meet Outage.meet
  rw [ho]
  cases s
  cases ho
  rfl

/-- Without outages, what is as expected can be read under a usable key. -/
theorem get_of_clear {s : Store ι} {key : ObjectKey} {e : Expected} {m : Manifest}
    (ho : s.outages = []) (hk : key.fault? = none) (hm : s.objects.find? key = some m)
    (he : e.admits m = true) : s.get key e = (s, .ok (some m)) := by
  unfold get
  rw [meet_of_clear ho, hk]
  dsimp only
  rw [hm]
  dsimp only
  rw [if_pos he]

/-- Without outages, nothing is found under a usable key where there is no object. -/
theorem get_of_clear_of_absent {s : Store ι} {key : ObjectKey} {e : Expected}
    (ho : s.outages = []) (hk : key.fault? = none) (hm : s.objects.find? key = none) :
    s.get key e = (s, .ok none) := by
  unfold get
  rw [meet_of_clear ho, hk]
  dsimp only
  rw [hm]

/-- Without outages, an object that is there can be updated. -/
theorem update_of_clear {s : Store ι} {key : ObjectKey} {m existing : Manifest}
    (ho : s.outages = []) (hk : keyOf m = .ok key) (hm : s.objects.find? key = some existing) :
    ∃ n, (s.update m).2 = .ok n := by
  unfold update
  rw [meet_of_clear ho, hk]
  dsimp only
  rw [hm]
  dsimp only
  split
  · exact ⟨_, rfl⟩
  · exact ⟨_, rfl⟩

/-- An update causes no outage. -/
theorem outages_update_of_clear {s : Store ι} (ho : s.outages = []) (m : Manifest) :
    (s.update m).1.outages = [] := by
  unfold update
  rw [meet_of_clear ho]
  dsimp only
  split
  · exact ho
  · exact ho
  · split
    · exact ho
    · split
      · exact ho
      · exact ho

/-- An update fails and leaves all objects as they are, or it finds an object under the key and
replaces it unless that one counts as equal. -/
theorem update_cases (m : Manifest) (s : Store ι) :
    (∃ f, (s.update m).2 = .error f ∧ (s.update m).1.objects = s.objects) ∨
      ∃ key existing n, keyOf m = .ok key ∧ s.objects.find? key = some existing ∧
        (s.update m).2 = .ok n ∧
        (s.update m).1.objects =
          if existing.same m then s.objects else s.objects.insert key m := by
  unfold update
  dsimp only
  split
  -- An outage, and an object without a usable key.
  · exact .inl ⟨_, rfl, rfl⟩
  · exact .inl ⟨_, rfl, rfl⟩
  · rename_i key _ hkey
    rw [objects_meet]
    split
    · exact .inl ⟨_, rfl, rfl⟩
    · rename_i existing hfound
      refine .inr ⟨key, existing, ?_⟩
      cases hsame : existing.same m with
      | true => exact ⟨none, hkey, hfound, by simp, by simp⟩
      | false => exact ⟨_, hkey, hfound, by simp; rfl, by simp⟩

end Store

namespace Cluster

variable {δ α : Type}

/-- An operation on the store changes the store of the cluster. -/
@[simp] theorem runOn_onStore (f : Store Nat → Store Nat × Except Fault α) (c : Cluster δ) :
    Call.runOn (onStore f) c = ({ c with store := (f c.store).1 }, (f c.store).2) :=
  rfl

/-! ### Reads -/

/-- Reading an object of the cluster reads it in the store. -/
theorem runOn_get (key : ObjectKey) (e : Expected) (c : Cluster δ) :
    Call.runOn (get key e) c = ({ c with store := (c.store.get key e).1 }, (c.store.get key e).2) :=
  rfl

/-- Reading an object leaves all objects as they are. -/
theorem keeps_get (key : ObjectKey) (e : Expected) :
    Call.Keeps (fun c : Cluster δ => c.store.objects) (get key e) :=
  fun _ => rfl

/-- A read that does not fail tells what stands under the key. -/
theorem get_eq_ok {c c' : Cluster δ} {key : ObjectKey} {e : Expected} {m : Option Manifest}
    (h : Call.runOn (get key e) c = (c', .ok m)) : c.store.objects.find? key = m := by
  rw [runOn_get, Prod.mk.injEq] at h
  exact Store.get_eq_ok (Prod.ext rfl h.2)

/-- Without outages, what is as expected can be read under a usable key. -/
theorem get_of_clear {c : Cluster δ} {key : ObjectKey} {e : Expected} {m : Manifest}
    (ho : c.store.outages = []) (hk : key.fault? = none)
    (hm : c.store.objects.find? key = some m) (he : e.admits m = true) :
    Call.runOn (get key e) c = (c, .ok (some m)) := by
  rw [runOn_get, Store.get_of_clear ho hk hm he]

/-- Where there is no object, it does not matter what is expected of it. -/
theorem get_of_absent {c : Cluster δ} {key : ObjectKey} (hm : c.store.objects.find? key = none)
    (e : Expected) : Call.runOn (get key e) c = Call.runOn (get key) c := by
  rw [runOn_get, runOn_get, Store.get_of_absent hm]

/-- Without outages, nothing is found under a usable key where there is no object. -/
theorem get_of_clear_of_absent {c : Cluster δ} {key : ObjectKey} {e : Expected}
    (ho : c.store.outages = []) (hk : key.fault? = none)
    (hm : c.store.objects.find? key = none) : Call.runOn (get key e) c = (c, .ok none) := by
  rw [runOn_get, Store.get_of_clear_of_absent ho hk hm]

/-- Checking the deployment of a resource leaves all objects as they are. -/
theorem keeps_workloadIsStale (ns name : Value) :
    Call.Keeps (fun c : Cluster δ => c.store.objects) (workloadIsStale ns name) := by
  refine Call.Keeps.bind (fun _ => rfl) fun c => ?_
  dsimp only
  -- The deployment is read only if the cluster tells its proxy.
  split
  · exact Call.Keeps.pure _
  · exact Call.Keeps.bind (keeps_get _ _) fun m _ => rfl

/-- Checking the children of a resource leaves all objects as they are. -/
theorem keeps_childMissing (r : CatalogSourceConfig) :
    Call.Keeps (fun c : Cluster δ => c.store.objects) (childMissing r) :=
  fun c => Store.objects_anyMissing c.store r.children

/-! ### Updates -/

/-- The watchers of a change only publish it. -/
theorem exists_deliver_eq (n : Notice Nat) (event : StoreEvent) (c : Cluster δ) :
    ∃ feed, n.deliver (watch event) c = { c with feed } := by
  -- Each watcher goes on from what the one before left, so the claim is about any start.
  have told : ∀ (audience : List Nat) (acc : Cluster δ × Manifest),
      ∃ feed, (audience.foldl (fun (acc : Cluster δ × Manifest) subscriber =>
        let (s, m, _) := watch event subscriber n.key acc.2 acc.1
        (s, m)) acc).1 = { acc.1 with feed } := by
    intro audience
    induction audience with
    | nil => exact fun acc => ⟨acc.1.feed, rfl⟩
    | cons w rest ih => exact fun acc => ih _
  exact told n.audience (c, n.object)

/-- Telling the watchers of a notice leaves the store as it is. -/
theorem store_deliver (n : Notice Nat) (event : StoreEvent) (c : Cluster δ) :
    (n.deliver (watch event) c).store = c.store := by
  obtain ⟨feed, h⟩ := exists_deliver_eq n event c
  rw [h]

/-- Announcing a change succeeds and leaves the store as it is. -/
theorem runOn_announce (n : Option (Notice Nat)) (c : Cluster δ) :
    ∃ c', Call.runOn (announce n) c = (c', .ok ()) ∧ c'.store = c.store := by
  cases n with
  | none => exact ⟨c, rfl, rfl⟩
  | some n => exact ⟨n.deliver (watch n.event) c, rfl, store_deliver n n.event c⟩

/-- An update comes out as the store says, and leaves what the store makes of its objects. -/
theorem runOn_update (m : Manifest) (c : Cluster δ) :
    (Call.runOn (update m) c).1.store = (c.store.update m).1 ∧
      (Call.runOn (update m) c).2 = (c.store.update m).2.map fun _ => () := by
  unfold update
  rw [Call.runOn_bind, runOn_onStore]
  cases h : c.store.update m with
  | mk s r =>
    cases r with
    | error f => exact ⟨rfl, rfl⟩
    | ok n =>
      obtain ⟨c', hc, hs⟩ := runOn_announce n { c with store := s }
      simp only [hc]
      exact ⟨hs, rfl⟩

/-- An update changes nothing but the store and the feed. -/
theorem exists_update_eq (m : Manifest) (c : Cluster δ) :
    ∃ feed, (Call.runOn (update m) c).1 = { c with store := (c.store.update m).1, feed } := by
  unfold update
  rw [Call.runOn_bind, runOn_onStore]
  cases h : c.store.update m with
  | mk s r =>
    cases r with
    | error f => exact ⟨c.feed, rfl⟩
    | ok n =>
      cases n with
      | none => exact ⟨c.feed, rfl⟩
      | some n => exact exists_deliver_eq n n.event { c with store := s }

/-- An update fails and leaves all objects as they are, or it finds an object under the key and
replaces it unless that one counts as equal. -/
theorem update_cases (m : Manifest) (c : Cluster δ) :
    (∃ f, (Call.runOn (update m) c).2 = .error f ∧
        (Call.runOn (update m) c).1.store.objects = c.store.objects) ∨
      ∃ key existing, Store.keyOf m = .ok key ∧ c.store.objects.find? key = some existing ∧
        (Call.runOn (update m) c).2 = .ok () ∧
        (Call.runOn (update m) c).1.store.objects =
          if existing.same m then c.store.objects else c.store.objects.insert key m := by
  obtain ⟨hs, hr⟩ := runOn_update m c
  rw [hs, hr]
  rcases Store.update_cases m c.store with ⟨f, hf, ho⟩ | ⟨key, existing, n, hkey, hfound, hn, ho⟩
  · exact .inl ⟨f, by rw [hf]; rfl, ho⟩
  · exact .inr ⟨key, existing, hkey, hfound, by rw [hn]; rfl, ho⟩

/-- Without outages, an object that is there can be updated. -/
theorem update_of_clear {c : Cluster δ} {key : ObjectKey} {m existing : Manifest}
    (ho : c.store.outages = []) (hk : Store.keyOf m = .ok key)
    (hm : c.store.objects.find? key = some existing) :
    (Call.runOn (update m) c).2 = .ok () := by
  obtain ⟨n, hn⟩ := Store.update_of_clear ho hk hm
  rw [(runOn_update m c).2, hn]
  rfl

end Cluster

end CatalogOperator
