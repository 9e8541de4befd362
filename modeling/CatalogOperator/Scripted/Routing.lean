import CatalogOperator.Watch.Router

/-!
# `CatalogOperator.Scripted.Routing`: a router whose sinks remember

A router with any mappers, whose sinks take the keys of some kinds and remember them in the order in
which they came.

* `Routing`: the router with the state its mappers work on.
* `Routing.run`: handles every event that waits.
* `Routing.attach`, `Routing.detach`: watching the store.
-/

set_option autoImplicit false

namespace CatalogOperator

/-- A router: the state its mappers work on, the mappers, the kinds of its sinks, the keys the sinks
were given, and the watcher that was attached last. -/
structure Routing where
  shared : Shared Unit
  mappers : List (Mapper (Shared Unit))
  kinds : List Value
  received : List ObjectKey := []
  watcher : Option Nat := none

namespace Routing

/-- The routing with another shared state. -/
def setShared (shared : Shared Unit) (r : Routing) : Routing :=
  { r with shared }

/-- The feed of watch events. -/
def feed (r : Routing) : Feed :=
  r.shared.cluster.feed

/-- The routing with another cluster. -/
def setCluster (cluster : Cluster Unit) (r : Routing) : Routing :=
  { r with shared := { r.shared with cluster } }

/-- The routing with another feed. -/
def setFeed (feed : Feed) (r : Routing) : Routing :=
  r.setCluster { r.shared.cluster with feed }

/-- A call on the cluster. -/
def callCluster {α : Type} (c : Call (Cluster Unit) α) : Call Routing α :=
  c.zoom (·.shared.cluster) setCluster

/-- A sink remembers a key. -/
def receive (key : ObjectKey) : Call Routing Unit :=
  modify fun r => { r with received := r.received ++ [key] }

/-- The mappers with the sinks. -/
def router (r : Routing) : Router Routing where
  mappers := r.mappers.map fun m => m.zoom (·.shared) setShared
  sinks := Table.ofList (r.kinds.map fun k => (k, receive))

/-- Handles every event that waits, and tells the keys that the sinks were given. -/
def run (r : Routing) : List ObjectKey × Routing :=
  let r := r.router.handleSome feed setFeed r.feed.events.length r
  (r.received, { r with received := [] })

/-- Attaches a watcher to the store. -/
def attach (r : Routing) : Routing :=
  let (cluster, number) := r.shared.cluster.attach
  { r.setCluster cluster with watcher := some number }

/-- Detaches the watcher that was attached last. -/
def detach : Call Routing Unit :=
  .ofFunction fun r =>
    match r.watcher with
    | some number => (r.setCluster (r.shared.cluster.detach number), .ok ())
    | none => (r, .error (.misuse "nothing is attached"))

end Routing

/-- A mapper that fails for every event it accepts. -/
def Mapper.failing {σ : Type} (kinds : List Value) : Mapper σ where
  accepts e := e.hasKind kinds
  map _ := throw (.invalidArgument "mapper failed")

end CatalogOperator
