import CatalogOperator.Catalog.Validity
import CatalogOperator.Activity
import CatalogOperator.Proxy.Sync
import CatalogOperator.Watch.Event

/-!
# `CatalogOperator.Cluster`: the cluster as the operator sees it

The cluster is the store with the feed of watch events that its changes give rise to, the proxy
values in force, the clock, and whatever else a deployer works on.

A watcher that attaches to the store is told of every later change, and of every object already
there as if it had just been created. Several watchers may be attached at once.

* `Call`: an operation on a state that may fail. What it did before failing stays done.
* `Cluster.get`, `Cluster.list`, `Cluster.create`, `Cluster.update`, `Cluster.delete`: store calls.
  A change is published once for each attached watcher.
* `Cluster.attach`, `Cluster.detach`: watching the store.
* `Cluster.refreshProxy`: takes the proxy values over from the object that holds them.
* `Cluster.childMissing`, `Cluster.workloadIsStale`: how a configured resource is checked.
-/

set_option autoImplicit false

namespace CatalogOperator

/-- An operation on a state that may fail. -/
abbrev Call (σ α : Type) : Type :=
  ExceptT Fault (StateM σ) α

namespace Call

variable {σ τ α : Type}

/-- The operation of a function. -/
def ofFunction (f : σ → σ × Except Fault α) : Call σ α :=
  fun s => let (s', r) := f s; (r, s')

/-- The result and the state after an operation. -/
def runOn (c : Call σ α) (s : σ) : σ × Except Fault α :=
  let (r, s') := c s
  (s', r)

/-- An operation on a part of a larger state. -/
def zoom (get : τ → σ) (set : σ → τ → τ) (c : Call σ α) : Call τ α :=
  fun whole => let (r, s) := c (get whole); (r, set s whole)

/-- An operation as an activity that never sleeps. -/
def toActivity (c : Call σ α) : Activity σ (Except Fault α) :=
  Activity.step c.runOn

end Call

/-- A clock that is read from time to time. -/
structure Clock where
  reading : Nat → Moment := fun _ => default
  taken : Nat := 0
  deriving Inhabited

/-- The next reading, and the clock after it. The first reading has number one. -/
def Clock.read (c : Clock) : Moment × Clock :=
  (c.reading (c.taken + 1), { c with taken := c.taken + 1 })

/-- The cluster. Watchers are told apart by numbers. -/
structure Cluster (δ : Type) where
  store : Store Nat := {}
  feed : Feed := {}
  watchers : Nat := 0
  proxy : ProxyStore := {}
  clock : Clock := {}
  surroundings : δ

namespace Cluster

variable {δ α : Type}

/-- An operation on the store. -/
def onStore (f : Store Nat → Store Nat × Except Fault α) : Call (Cluster δ) α :=
  .ofFunction fun c => let (store, r) := f c.store; ({ c with store }, r)

/-- Publishes a watch event. -/
def publish (c : Cluster δ) (e : WatchEvent) : Cluster δ :=
  { c with feed := c.feed.publish e }

/-- How the watchers of a kind of change are told: each publishes the change. -/
def watch (event : StoreEvent) : Callback Nat (Cluster δ) :=
  fun _ _ m c => (c.publish { type := .ofStore event, object := m }, m, none)

/-- Announces a change to the watchers. -/
def announce (n : Option (Notice Nat)) : Call (Cluster δ) Unit :=
  .ofFunction fun c =>
    match n with
    | none => (c, .ok ())
    | some n => (n.deliver (watch n.event) c, .ok ())

/-- The object under a key. -/
def get (key : ObjectKey) (expected : Expected := .anything) :
    Call (Cluster δ) (Option Manifest) :=
  onStore fun s => s.get key expected

/-- The objects of a kind, or all of them. -/
def list (kind : Value := .null) : Call (Cluster δ) (List Manifest) :=
  onStore fun s => s.list kind

/-- Puts a new object in. -/
def create (m : Manifest) : Call (Cluster δ) Unit := do
  announce (← onStore fun s => s.create m)

/-- Replaces an object. -/
def update (m : Manifest) : Call (Cluster δ) Unit := do
  announce (← onStore fun s => s.update m)

/-- Removes an object. -/
def delete (key : ObjectKey) : Call (Cluster δ) Unit := do
  announce (← onStore fun s => s.delete key)

/-- The events a watcher subscribes to. -/
def watchedEvents : List StoreEvent :=
  [.added, .updated, .deleted]

/-- Attaches a watcher and tells its number. The objects already in the store are published. -/
def attach (c : Cluster δ) : Cluster δ × Nat :=
  let number := c.watchers
  let store := watchedEvents.foldl (fun s e => s.subscribe e number) c.store
  let c := { c with store, watchers := number + 1 }
  ((flushTo number (watch .added) c.store.objects.entries c).1, number)

/-- Detaches a watcher. -/
def detach (c : Cluster δ) (number : Nat) : Cluster δ :=
  { c with store := watchedEvents.foldl (fun s e => s.unsubscribe e number) c.store }

/-- The key of the object that holds the proxy values of the cluster. -/
def proxyKey : ObjectKey :=
  ⟨.text Kind.proxy, .null, .text singletonName⟩

/-- Sets the proxy values in force. -/
def setProxy (config : ProxyConfig) : Call (Cluster δ) Bool :=
  .ofFunction fun c => let (proxy, r) := c.proxy.set config; ({ c with proxy }, r)

/-- The proxy values that an object of the store holds. -/
def proxyConfigOf : Option Manifest → ProxyConfig
  | some (.proxy p) => p.status
  | _ => {}

/-- Takes the proxy values over from the object that holds them; without one, they are empty. Tells
whether the values changed. -/
def refreshProxy : Call (Cluster δ) Bool := do
  let m ← get proxyKey (.only "ClusterProxy")
  setProxy (proxyConfigOf m)

/-- The deployment among the manifests. -/
def deploymentOf : Option Manifest → Option Deployment
  | some (.deployment d) => some d
  | _ => none

/-- Whether the deployment of the given name has proxy variables that are out of date. -/
def workloadIsStale (ns name : Value) : Call (Cluster δ) Bool := do
  let proxy := (← MonadState.get : Cluster δ).proxy
  if !proxy.available then return false
  else
    let m ← get ⟨.text Kind.deployment, ns, name⟩ (.only "Deployment")
    ExceptT.mk (pure (proxy.deploymentIsStale? (deploymentOf m)))

/-- Whether a child of a catalog source config is missing. -/
def childMissing (r : CatalogSourceConfig) : Call (Cluster δ) Bool :=
  onStore fun s => s.anyMissing r.children

end Cluster

end CatalogOperator
