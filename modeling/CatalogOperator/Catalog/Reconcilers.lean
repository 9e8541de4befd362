import CatalogOperator.Reconcile.Dispatcher
import CatalogOperator.Reconcile.Shared

/-!
# `CatalogOperator.Catalog.Reconcilers`: reconciling catalog source configs

A new catalog source config is validated. Configuring it ensures its registry resources and is tried
again while they cannot be ensured. A configured one falls back to configuring when a child has gone
missing or its deployment has proxy variables that are out of date.

* `Catalog.configuring`: remembers the resource as it is before anything else is done.
* `Catalog.succeeded`: checks the children, then the deployment.
* `Catalog.dispatcher`: the reconcilers of all phases.
-/

set_option autoImplicit false

namespace CatalogOperator

namespace Catalog

variable {δ : Type}

/-- Ensures the registry resources. -/
def configure (d : Deployer δ) : Handler (Shared δ) CatalogSourceConfig := fun trace r => do
  Shared.modify fun s => { s with lastKnownGood := s.lastKnownGood.insert r.key r }
  let (r, ensured) ← Shared.onCluster (d.ensure trace r)
  match ensured with
  | .error f =>
    if f.isCancellation then return (r, .error f) else return (r, .ok (.retry f))
  | .ok () =>
    let (r, populated) ← Shared.populate d r
    return (r, populated.map fun () => .configured)

/-- The reconciler of catalog source configs that are being configured. -/
def configuring (d : Deployer δ) : Reconciler (Shared δ) CatalogSourceConfig where
  label := "ConfiguringReconciler"
  phase := Phase.configuring.text
  handle := configure d

/-- Whether a configured catalog source config has to be configured anew. -/
def needsReset (r : CatalogSourceConfig) : Call (Cluster δ) Bool := do
  if ← Cluster.childMissing r then return true
  else Cluster.workloadIsStale r.ns r.name

/-- Checks that a configured catalog source config still is as it should be. -/
def check : Handler (Shared δ) CatalogSourceConfig := fun _ r => do
  match ← Shared.callCluster (needsReset r) with
  | .error f => return (r, .error f)
  | .ok true => return (r.resetStatus, .ok .reconfigure)
  | .ok false => return (r, .ok {})

/-- The reconciler of configured catalog source configs. -/
def succeeded : Reconciler (Shared δ) CatalogSourceConfig where
  label := "SucceededReconciler"
  phase := Phase.succeeded.text
  handle := check

/-- The reconcilers of all phases. -/
def dispatcher (d : Deployer δ) (limit : Option Deadline) :
    Dispatcher (Shared δ) CatalogSourceConfig where
  table := Table.ofList ([.initial CatalogSourceConfig.problem?, configuring d, succeeded,
    .failed].map fun rec => (rec.phase, rec))
  limit := limit.map (·.number)

end Catalog

end CatalogOperator
