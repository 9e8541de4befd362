import CatalogOperator.Reconcile.Shared

/-!
# `CatalogOperator.Watch.Router`: from watch events to keys

Mappers turn watch events into the keys of resources to be reconciled, and the router hands each key
to the sink of its kind. A fault while an event is handled costs the keys of that event that have not
been handed over yet, and nothing else.

* `Mapper.own`: a managed resource is reconciled when it changes.
* `Mapper.childDeletion`: the owner of a deleted child is reconciled.
* `Mapper.clusterProxy`: a change of the proxy values brings up every owner.
* `Mapper.hub`: the tracked errors follow the operator hub.
* `Router.route`: the keys of an event, each once.
* `Router.handle`: routes an event and hands the keys over.
-/

set_option autoImplicit false

namespace CatalogOperator

/-- Turns events it accepts into keys. -/
structure Mapper (σ : Type) where
  accepts : WatchEvent → Bool
  map : WatchEvent → Call σ (List ObjectKey)

namespace Mapper

variable {σ τ δ : Type}

/-- A mapper on a part of a larger state. -/
def zoom (get : τ → σ) (set : σ → τ → τ) (m : Mapper σ) : Mapper τ where
  accepts := m.accepts
  map e := (m.map e).zoom get set

/-- A mapper on the cluster that reconciles share. -/
def onCluster (m : Mapper (Cluster δ)) : Mapper (Shared δ) :=
  m.zoom (·.cluster) fun cluster s => { s with cluster }

/-- A mapper on the tracked errors that reconciles share. -/
def onTracker (m : Mapper ErrorTracker) : Mapper (Shared δ) :=
  m.zoom (·.tracker) fun tracker s => { s with tracker }

/-- Whether an object is in a namespace, if one is given. -/
def inNamespace (m : Manifest) : Option Value → Bool
  | none => true
  | some ns => (m.ns?.getD .null).same ns

/-- Maps a managed resource to its own key, in one namespace or in all. -/
def own (kind : Value) (ns : Option Value := none) : Mapper σ where
  accepts e := e.hasKind [kind] && inNamespace e.object ns
  map e := ExceptT.mk (pure (e.object.key?.map fun k => [k]))

/-- The kinds of the children of a catalog source config. -/
def childKinds : List Value :=
  [Kind.catalogSource, Kind.deployment, Kind.service, Kind.serviceAccount, Kind.role,
    Kind.roleBinding].map .text

/-- The labels that name the owner of a child. -/
def ownerNameLabel : String := "csc-owner-name"
def ownerNamespaceLabel : String := "csc-owner-namespace"

/-- The owner that the labels of a child name. -/
def owner? (m : Manifest) : Option ObjectKey :=
  let name := (Value.get? m.labels ownerNameLabel).getD .null
  let ns := (Value.get? m.labels ownerNamespaceLabel).getD .null
  if name.isTrue && ns.isTrue then some ⟨.text Kind.catalogSourceConfig, ns, name⟩ else none

/-- Maps a deleted child to its owner. A delete whose final state is unknown is dropped. -/
def childDeletion : Mapper σ where
  accepts e := e.hasKind childKinds && e.type == .delete && !e.stateUnknown
  map e := pure (owner? e.object).toList

/-- The keys of objects, as far as all of them have one. -/
def keysOf (ms : List Manifest) : Except Fault (List ObjectKey) :=
  ms.mapM fun m => m.key?

/-- The keys of all objects of the given kinds in a namespace, kind after kind. -/
def ownersOf (ns : Option Value) : List String → Call (Cluster δ) (List ObjectKey)
  | [] => pure []
  | kind :: rest => do
    let ms ← Cluster.list (.text kind)
    let keys ← ExceptT.mk (pure (keysOf (ms.filter fun m => inNamespace m ns)))
    return keys ++ (← ownersOf ns rest)

/-- Takes the proxy values over and tells the keys of all owners. -/
def refreshAndList (kinds : List String) (ns : Option Value) :
    Call (Cluster δ) (List ObjectKey) := do
  let _ ← Cluster.refreshProxy
  ownersOf ns kinds

/-- The result of a call, or another one in place of a failed store call. -/
def orOnStoreFailure {α : Type} (c : Call σ α) (other : α) : Call σ α :=
  fun s =>
    match c s with
    | (.error f, s') => if f.isStoreFailure then (.ok other, s') else (.error f, s')
    | (.ok a, s') => (.ok a, s')

/-- Maps a change of the cluster proxy to every resource of the given kinds. If a store call fails
there are no keys. -/
def clusterProxy (kinds : List String) (ns : Option Value := none) : Mapper (Cluster δ) where
  accepts e := e.hasKind [.text Kind.proxy] &&
    (e.object.isSingleton || e.old.any Manifest.isSingleton)
  map _ := orOnStoreFailure (refreshAndList kinds ns) []

/-- The sources that an event leaves enabled: none once the hub is gone. -/
def enabledAfter (e : WatchEvent) : OperatorHub :=
  match e.type, e.object with
  | .delete, _ => {}
  | _, .hub h => h
  | _, _ => {}

/-- Drops the tracked errors of sources that the operator hub does not enable. -/
def hub : Mapper ErrorTracker where
  accepts e := e.hasKind [.text Kind.operatorHub] && e.object.isSingleton
  map e := .ofFunction fun t => (t.sync (enabledAfter e), .ok [])

end Mapper

/-- The mappers in order, and the sinks of the kinds. -/
structure Router (σ : Type) where
  mappers : List (Mapper σ)
  sinks : Table Value (ObjectKey → Call σ Unit) := Table.empty

namespace Router

variable {σ : Type}

/-- A list of keys with those of another list that it lacks. -/
def union (keys more : List ObjectKey) : List ObjectKey :=
  more.foldl (fun ks k => if ks.contains k then ks else ks ++ [k]) keys

/-- The keys that the mappers of a list make of an event, added to those found before. -/
def collect (e : WatchEvent) (found : List ObjectKey) : List (Mapper σ) → Call σ (List ObjectKey)
  | [] => pure found
  | m :: rest =>
    if m.accepts e then do
      let keys ← m.map e
      collect e (union found keys) rest
    else collect e found rest

/-- The keys of an event, each once, in the order in which the mappers found them. -/
def route (r : Router σ) (e : WatchEvent) : Call σ (List ObjectKey) :=
  collect e [] r.mappers

/-- Hands keys over to the sinks of their kinds. Keys of other kinds are skipped. -/
def deliver (r : Router σ) : List ObjectKey → Call σ Unit
  | [] => pure ()
  | k :: rest => do
    if !k.kind.isScalar then throw (Fault.notAKey k.kind)
    else
      match r.sinks.find? k.kind with
      | none => r.deliver rest
      | some sink =>
        sink k
        r.deliver rest

/-- Routes an event and hands the keys over. -/
def routeAndDeliver (r : Router σ) (e : WatchEvent) : Call σ Unit := do
  r.deliver (← r.route e)

/-- The state after an event has been handled, whether or not that met a fault. -/
def handle (r : Router σ) (e : WatchEvent) (s : σ) : σ :=
  ((r.routeAndDeliver e).runOn s).1

/-- Handles the first event that waits in the feed of a state. -/
def handleNext (r : Router σ) (get : σ → Feed) (set : Feed → σ → σ) (s : σ) : Option σ :=
  match (get s).take? with
  | none => none
  | some (e, feed) =>
    let s := r.handle e (set feed s)
    some (set (get s).finish s)

/-- Handles as many events as the given number, if there are so many. -/
def handleSome (r : Router σ) (get : σ → Feed) (set : Feed → σ → σ) : Nat → σ → σ
  | 0, s => s
  | n + 1, s =>
    match r.handleNext get set s with
    | none => s
    | some s => r.handleSome get set n s

end Router

end CatalogOperator
