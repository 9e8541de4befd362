import CatalogOperator.Reconcile.Dispatcher
import CatalogOperator.Reconcile.Shared
import CatalogOperator.Source.Derived

/-!
# `CatalogOperator.Source.Reconcilers`: reconciling operator sources

A new operator source is validated. Configuring it ensures the registry resources of the catalog
derived from it; what fails is tracked under the name of the source until an attempt succeeds. A
configured source falls back to configuring when its deployment has proxy variables that are out of
date, and its packages are remembered before its status is reset.

* `Source.configuring`, `Source.succeeded`: the reconcilers of the two working phases.
* `Source.dispatcher`: the reconcilers of all phases.
-/

set_option autoImplicit false

namespace CatalogOperator

namespace Source

variable {δ : Type}

/-- Remembers the packages in the status of a source, and tells what packages it has. -/
def recordPackages (r : OperatorSource) : Activity (Shared δ) Value :=
  Activity.step fun s =>
    let packages := PackageIndex.record s.packages r
    ({ s with packages }, PackageIndex.packagesFor packages r)

/-- Tracks the failure of a source. -/
def track (r : OperatorSource) (f : Fault) : Activity (Shared δ) Unit :=
  Shared.modify fun s =>
    { s with tracker := s.tracker.insert r.name (.degraded .ensureResources (some f.message)) }

/-- Forgets the failure of a source. -/
def untrack (r : OperatorSource) : Activity (Shared δ) Unit :=
  Shared.modify fun s => { s with tracker := s.tracker.erase r.name }

/-- Ensures the registry resources of the derived catalog. -/
def configure (d : Deployer δ) : Handler (Shared δ) OperatorSource := fun trace r => do
  let packages ← recordPackages r
  let (derived, ensured) ← Shared.onCluster (d.ensure trace (r.derived packages))
  match ensured with
  | .error f =>
    if f.isCancellation then return (r, .error f)
    else
      track r f
      return (r, .ok (.retry f))
  | .ok () =>
    match (← Shared.populate d derived).2 with
    | .error f => return (r, .error f)
    | .ok () =>
      untrack r
      return ({ r with packages }, .ok .configured)

/-- The reconciler of operator sources that are being configured. -/
def configuring (d : Deployer δ) : Reconciler (Shared δ) OperatorSource where
  label := "ConfiguringReconciler"
  phase := Phase.configuring.text
  handle := configure d

/-- Checks that a configured operator source still is as it should be. -/
def check : Handler (Shared δ) OperatorSource := fun _ r => do
  match ← Shared.callCluster (Cluster.workloadIsStale r.ns r.name) with
  | .error f => return (r, .error f)
  | .ok false => return (r, .ok {})
  | .ok true =>
    let _ ← recordPackages r
    return (r.resetStatus, .ok .reconfigure)

/-- The reconciler of configured operator sources. -/
def succeeded : Reconciler (Shared δ) OperatorSource where
  label := "SucceededReconciler"
  phase := Phase.succeeded.text
  handle := check

/-- The reconcilers of all phases. -/
def dispatcher (d : Deployer δ) (limit : Option Deadline) :
    Dispatcher (Shared δ) OperatorSource where
  table := Table.ofList ([.initial fun r => .ok r.problem?, configuring d, succeeded,
    .failed].map fun rec => (rec.phase, rec))
  limit := limit.map (·.number)

end Source

end CatalogOperator
