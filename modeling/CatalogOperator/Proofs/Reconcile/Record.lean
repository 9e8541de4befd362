import CatalogOperator.Proofs.Reconcile.Handlers

/-!
# `CatalogOperator.Proofs.Reconcile.Record`: reconciles work through the store

Whatever a reconcile does to the cluster while it is awake, it does by calls on the store, as long as
the deployer does so too. So each stretch of a reconcile leaves a trail.

* `Recorded`: the shared states between which a trail leads.
* `WorksThroughStore`: the deployers of which this is assumed. They may fail at any point, sleep, and
  write whatever they like.
* `recorded_reconcile`: it holds of a whole reconcile.
-/

set_option autoImplicit false

namespace CatalogOperator.Proofs.Reconcile

section

variable {δ : Type}

/-- Whether a trail leads from the cluster of a shared state to that of another one. -/
def Recorded (s s' : Shared δ) : Prop :=
  ∃ ns, Trail s.cluster ns s'.cluster

/-- One trail goes on with another one. -/
theorem sequential_recorded : Sequential (Recorded : Shared δ → Shared δ → Prop) where
  refl s := ⟨[], .refl s.cluster⟩
  trans := by
    rintro s t u ⟨ns, h⟩ ⟨ns', h'⟩
    exact ⟨ns ++ ns', h.trans h'⟩

/-- A deployer that changes the objects of the cluster by calls on the store only. -/
structure WorksThroughStore (D : Deployer δ) : Prop where
  ensure : ∀ trace r, (D.ensure trace r).Obeys fun c c' => ∃ ns, Trail c ns c'
  populate : ∀ r c, ∃ ns, Trail c ns (D.populate r c).1

/-- A deployer that leaves the cluster alone. -/
theorem worksThroughStore_of_pure {D : Deployer δ}
    {ensured : CatalogSourceConfig → CatalogSourceConfig × Except Fault Unit}
    (hensure : ∀ trace r, D.ensure trace r = .pure (ensured r))
    (hpopulate : ∀ r c, (D.populate r c).1 = c) : WorksThroughStore D where
  ensure trace r := by
    rw [hensure]
    exact .pure ⟨fun c => ⟨[], .refl c⟩, fun ⟨ns, h⟩ ⟨ns', h'⟩ => ⟨ns ++ ns', h.trans h'⟩⟩ _
  populate r c := by
    rw [hpopulate]
    exact ⟨[], .refl c⟩

/-- The idle deployer leaves the store alone. -/
theorem worksThroughStore_idle : WorksThroughStore (idle : Deployer δ) :=
  worksThroughStore_of_pure (fun _ _ => rfl) fun _ _ => rfl

/-! ### The reconcile -/

/-- What leaves the cluster alone leaves a trail without notices. -/
theorem recorded_step {α : Type} {f : Shared δ → Shared δ × α}
    (h : ∀ s, (f s).1.cluster = s.cluster) : (Activity.step f).Obeys Recorded :=
  Activity.Obeys.step fun s => ⟨[], h s ▸ .refl s.cluster⟩

/-- Whatever is done to the cluster leaves a trail if the deployer works through the store. -/
theorem allows_recorded {D : Deployer δ} (hD : WorksThroughStore D) : Allows D Recorded where
  toSequential := sequential_recorded
  aside _ _ h := ⟨[], h.trail⟩
  update s m := ⟨_, (Write.update m).trail s.cluster⟩
  ensure trace r := obeys_onCluster (fun _ _ h => h) (hD.ensure trace r)
  populate r := obeys_onCluster (Q := fun c c' => ∃ ns, Trail c ns c') (fun _ _ h => h)
    (.step (hD.populate r))

/-- No bookkeeping touches the cluster. -/
theorem books_recorded (K : ObjectKey) : Books (Recorded : Shared δ → Shared δ → Prop) K where
  record _ _ := recorded_step fun _ => rfl
  track _ _ _ := recorded_step fun _ => rfl
  untrack _ _ := recorded_step fun _ => rfl
  remember _ _ := recorded_step fun _ => rfl

/-- What is forgotten of an object that is gone is none of the cluster. -/
theorem recorded_forgetCopy (k : ObjectKey) :
    Activity.Obeys (Recorded : Shared δ → Shared δ → Prop) (Controller.forgetCopy k).run :=
  recorded_step fun _ => rfl

/-- Forgetting a source that is gone leaves the store alone. -/
theorem recorded_forgetSource (k : ObjectKey) :
    Activity.Obeys (Recorded : Shared δ → Shared δ → Prop) (Controller.forgetSource k).run :=
  recorded_step fun _ => rfl

/-- A reconcile works through the store if the deployer does, whatever is done when the object is
gone, as long as that does not touch the cluster. -/
theorem recorded_reconcile {D : Deployer δ} {Spec Packages : Type} [ManagedKind Spec Packages]
    {d : Dispatcher (Shared δ) (Managed Spec Packages)} (hD : WorksThroughStore D)
    (hd : Standard D d) {deleted : DeletionHook δ} (hdel : ∀ key, (deleted key).run.Obeys Recorded)
    (key : ObjectKey) : (reconcile d deleted key).run.Obeys Recorded :=
  fun _ => obeys_reconcile (allows_recorded hD) hd (fun r _ _ => books_recorded r.key) (hdel key)

end

end CatalogOperator.Proofs.Reconcile
