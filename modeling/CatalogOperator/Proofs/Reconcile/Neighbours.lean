import CatalogOperator.Proofs.Reconcile.Notes
import CatalogOperator.Proofs.Reconcile.Record

/-!
# `CatalogOperator.Proofs.Reconcile.Neighbours`: a reconcile leaves other objects alone

A reconcile writes back the resource that it has read, and nothing else. So the object under any other
key stays as it is, as far as the deployer leaves it alone, provided that the deployer does not rename
the resource it works on.

* `keeps_reconcile`: a reconcile leaves the object under any other key alone.
* `KeepsTo`: what the rest of a reconcile promises. `Manages.keepsTo` says that the reconciles of the
  managed kinds keep this promise.
-/

set_option autoImplicit false

namespace CatalogOperator.Proofs.Reconcile

section

variable {δ Spec Packages : Type} [ManagedKind Spec Packages] {D : Deployer δ} {k K : ObjectKey}
  {d : Dispatcher (Shared δ) (Managed Spec Packages)} {deleted : DeletionHook δ}
  {r : Managed Spec Packages} {s : Shared δ}

/-- What a dispatch comes out with is the resource that was dispatched, whatever has become of it,
unless the deployer renames it. -/
theorem key_of_verdicts (hi : KeepsIdentity D) {o : Outcome (Managed Spec Packages)}
    (h : Verdicts D r (.ok o)) : o.resource.key = r.key := by
  cases h with
  | configured out _ hkey => exact hkey hi
  | retried out f _ hkey => exact hkey hi
  | _ => rfl

/-- So finishing leaves the object under any other key alone. -/
theorem keeps_finish (hi : KeepsIdentity D) (hne : r.key ≠ k)
    {x : Except Fault (Outcome (Managed Spec Packages))} (hx : Verdicts D r x) (t : Shared δ) :
    (finish r x t).Keeps (objectAt k) (fun _ => True) t := by
  obtain ⟨u, result, hfin⟩ := finish_eq r x t
  rw [hfin]
  refine ⟨?_, trivial⟩
  cases x with
  | error f =>
    cases hfin
    rfl
  | ok o =>
    refine (finish_objectAt hfin k).resolve_right fun ⟨hkey, _⟩ => hne ?_
    rw [← key_of_verdicts hi hx, ← hkey, settle_key]

/-- A reconcile leaves the object under any other key alone if the deployer does and the resource is
not renamed. -/
theorem keeps_reconcile (hd : Standard D d) (hi : KeepsIdentity D) (hD : Spares D k)
    (hdel : Activity.Keeps (objectAt k) (fun _ => True) (deleted K).run)
    (hs : s.cluster.store.Filed) (hne : k ≠ K) :
    ((reconcile d deleted K).run s).Keeps (objectAt k) (fun _ => True) s := by
  have hobjects := Cluster.keeps_get K (.only (ManagedKind.kind Spec)) s.cluster
  rw [reconcile_run]
  cases hget : Call.runOn (Cluster.get K (.only (ManagedKind.kind Spec))) s.cluster with
  | mk cluster x =>
    rw [hget] at hobjects
    have hsame : SameAt k s { s with cluster } := sameAt_of_objects_eq hobjects k
    cases x with
    | error f => exact ⟨hsame, trivial⟩
    | ok m =>
      dsimp only
      cases hm : (m.bind ManagedKind.ofManifest? : Option (Managed Spec Packages)) with
      | none =>
        have hdropped : Activity.Keeps (objectAt k) (fun _ => True)
            (do deleted K; return false : Attempt (Shared δ) Bool).run := by
          refine Activity.Keeps.bind hdel fun x _ => ?_
          cases x <;> exact .pure trivial
        exact (hdropped _).start hsame
      | some r =>
        obtain ⟨m, rfl, hr⟩ := Option.bind_eq_some_iff.mp hm
        rw [ManagedKind.ofManifest?_eq_some_iff] at hr
        subst hr
        -- What stands under the key has this key, and it is written back under it.
        have hkey : K = r.key := keyOf_eq_ok (hs K _ (Cluster.get_eq_ok hget))
        refine Run.Keeps.start (Run.Keeps.bind (keeps_dispatch hD hd [] r _) fun x hx t => ?_) hsame
        exact keeps_finish hi (hkey ▸ hne.symm) hx t

end

section

variable {δ : Type}

/-- Whether the rest of a reconcile of a key works through the store, and leaves the object under any
other key alone if the deployer does. -/
structure KeepsTo (D : Deployer δ) (K : ObjectKey) (s : Shared δ)
    (run : Run (Shared δ) (Except Fault Bool)) : Prop where
  recorded : run.Obeys Recorded s
  others : ∀ k, k ≠ K → Spares D k → run.Keeps (objectAt k) (fun _ => True) s

variable {D : Deployer δ} {K : ObjectKey}

/-- This holds of the rest of it after each sleep. -/
theorem KeepsTo.woken {s t : Shared δ} {d : Rat}
    {resume : Wake → Shared δ → Run (Shared δ) (Except Fault Bool)}
    (h : KeepsTo D K s (.asleep t d resume)) (w : Wake) (s' : Shared δ) :
    KeepsTo D K s' (resume w s') where
  recorded := h.recorded.2 w s'
  others k hk hD := (h.others k hk hD).2 w s'

/-- A controller of one of the managed kinds keeps to the key that it reconciles. -/
theorem Manages.keepsTo {c : Controller δ} (hc : Manages D c) (hD : WorksThroughStore D)
    (hi : KeepsIdentity D) {s : Shared δ} (hs : s.cluster.store.Filed) (K : ObjectKey) :
    KeepsTo D K s ((c.reconcile K).run s) := by
  cases hc with
  | catalogs limit _ hrec =>
    rw [hrec]
    exact ⟨recorded_reconcile hD (.catalog limit) recorded_forgetCopy K s,
      fun k hk hk' => keeps_reconcile (.catalog limit) hi hk' (fun _ => ⟨rfl, trivial⟩) hs hk⟩
  | sources limit _ hrec =>
    rw [hrec]
    exact ⟨recorded_reconcile hD (.source limit) recorded_forgetSource K s,
      fun k hk hk' => keeps_reconcile (.source limit) hi hk' (fun _ => ⟨rfl, trivial⟩) hs hk⟩

end

end CatalogOperator.Proofs.Reconcile
