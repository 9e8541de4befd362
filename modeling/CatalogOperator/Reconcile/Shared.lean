import CatalogOperator.Cluster
import CatalogOperator.Source.PackageIndex
import CatalogOperator.Status.ErrorTracker
import CatalogOperator.Trace

/-!
# `CatalogOperator.Reconcile.Shared`: what all reconciles share

Every reconcile sees the same cluster, the same tracked errors, the same last known good copies and
the same package index. The registry resources themselves are made by a deployer.

* `Shared`: the shared state.
* `Deployer`: the maker of the registry resources.
-/

set_option autoImplicit false

namespace CatalogOperator

/-- The copies of catalog source configs as they were before their latest attempt. -/
abbrev LastKnownGood := Table ObjectKey CatalogSourceConfig

/-- What all reconciles share. -/
structure Shared (δ : Type) where
  cluster : Cluster δ
  tracker : ErrorTracker := Table.empty
  lastKnownGood : LastKnownGood := Table.empty
  packages : PackageIndex := Table.empty

/-- The maker of the registry resources of a catalog source config. It works on the cluster and may
change the resource it is given. -/
structure Deployer (δ : Type) where
  /-- Creates the registry resources or brings them up to date. -/
  ensure : Trace → CatalogSourceConfig → Activity (Cluster δ) (CatalogSourceConfig × Except Fault Unit)
  /-- Fills in the package summaries of the status. -/
  populate : CatalogSourceConfig → Cluster δ → Cluster δ × CatalogSourceConfig × Except Fault Unit

namespace Shared

variable {δ α : Type}

/-- An activity on the cluster. -/
def onCluster (p : Activity (Cluster δ) α) : Activity (Shared δ) α :=
  p.zoom (·.cluster) fun cluster s => { s with cluster }

/-- A call on the cluster. -/
def callCluster (c : Call (Cluster δ) α) : Activity (Shared δ) (Except Fault α) :=
  onCluster c.toActivity

/-- A change of the shared state. -/
def modify (f : Shared δ → Shared δ) : Activity (Shared δ) Unit :=
  Activity.step fun s => (f s, ())

/-- The filling in of package summaries. -/
def populate (d : Deployer δ) (r : CatalogSourceConfig) :
    Activity (Shared δ) (CatalogSourceConfig × Except Fault Unit) :=
  onCluster (Activity.step fun c => d.populate r c)

end Shared

end CatalogOperator
