import CatalogOperator.Catalog.Reconcilers
import CatalogOperator.Config
import CatalogOperator.Source.Reconcilers
import CatalogOperator.WorkQueue

/-!
# `CatalogOperator.Operator.Controller`: driving one kind of resource through its phases

A controller owns a work queue and a number of workers. A worker takes a key, reads the latest
object, hands it to the reconciler for its phase, and writes the result back if it differs. A
reconcile that fails is tried again after a backoff delay; one that succeeds clears the count of
failures, and so does a dispatch error, which is not tried again.

* `reconcile`: one reconcile of a key.
* `Controller.conclude`: what the end of a reconcile means for the queue.
* `Controller.catalogs`, `Controller.sources`: the controllers of the two managed kinds.
-/

set_option autoImplicit false

namespace CatalogOperator

/-- An activity that may fail. -/
abbrev Attempt (σ α : Type) : Type :=
  ExceptT Fault (Activity σ) α

/-- What is done when a key is reconciled whose object is gone. -/
abbrev DeletionHook (δ : Type) : Type :=
  ObjectKey → Attempt (Shared δ) Unit

section

variable {δ Spec Packages : Type} [ManagedKind Spec Packages]

/-- The resource of an outcome with its next phase. -/
def settled (o : Outcome (Managed Spec Packages)) : Activity (Shared δ) (Managed Spec Packages) :=
  Activity.step fun s =>
    let (r, clock) := o.settle s.cluster.clock
    ({ s with cluster := { s.cluster with clock } }, r)

/-- Writes a resource back if it differs from the one that was read. -/
def writeBack (before after : Managed Spec Packages) : Attempt (Shared δ) Unit :=
  if after.toManifest.same before.toManifest then pure ()
  else ExceptT.mk (Shared.callCluster (Cluster.update after.toManifest))

/-- Reconciles a resource that was read. Tells whether it has to be tried again. -/
def reconcileResource (d : Dispatcher (Shared δ) (Managed Spec Packages))
    (r : Managed Spec Packages) : Attempt (Shared δ) Bool := do
  let o ← ExceptT.mk (d.dispatch [] r)
  let after ← ExceptT.lift (settled o)
  writeBack r after
  return o.error.isSome

/-- One reconcile of a key. Tells whether it has to be tried again. -/
def reconcile (d : Dispatcher (Shared δ) (Managed Spec Packages)) (deleted : DeletionHook δ)
    (key : ObjectKey) : Attempt (Shared δ) Bool := do
  let m ← ExceptT.mk (Shared.callCluster (Cluster.get key (.only (ManagedKind.kind Spec))))
  match m.bind ManagedKind.ofManifest? with
  | none =>
    deleted key
    return false
  | some r => reconcileResource d r

end

/-- A worker: about to ask for a key, waiting for one, asleep in a reconcile until some time, or at
its end. -/
inductive Worker (δ : Type) where
  | idle
  | waiting
  | busy (key : ObjectKey) (wakeAt : Rat)
      (resume : Wake → Shared δ → Run (Shared δ) (Except Fault Bool))
  | ended

/-- A controller of one kind: how it reconciles a key, in which namespace it resyncs, its queue, and
its workers, which are numbered. -/
structure Controller (δ : Type) where
  kind : String
  reconcile : ObjectKey → Attempt (Shared δ) Bool
  ns : Option Value
  queue : WorkQueue ObjectKey Nat
  workers : List (Worker δ) := []
  workerCount : Nat := 2
  resyncInterval : Option Double := none
  resyncDue : Option Rat := none
  started : Bool := false

namespace Controller

variable {δ : Type}

/-- A controller with the given settings. -/
def ofConfig (kind : String) (reconcile : ObjectKey → Attempt (Shared δ) Bool)
    (ns : Option Value) (config : ControllerConfig) : Controller δ where
  kind
  reconcile
  ns
  queue := { baseDelay := .float config.baseDelay, maxDelay := .float config.maxDelay }
  workerCount := config.workers.toNat
  resyncInterval := config.resyncInterval

/-- Forgets the last known good copy of a catalog source config that is gone. -/
def forgetCopy : DeletionHook δ := fun key =>
  ExceptT.lift (Shared.modify fun s => { s with lastKnownGood := s.lastKnownGood.erase key })

/-- Forgets the failure and the packages of an operator source that is gone. -/
def forgetSource : DeletionHook δ := fun key =>
  ExceptT.lift (Shared.modify fun s =>
    { s with tracker := s.tracker.erase key.name, packages := s.packages.erase key })

/-- The controller of catalog source configs. -/
def catalogs (d : Deployer δ) (ns : Option Value) (config : ControllerConfig) : Controller δ :=
  ofConfig Kind.catalogSourceConfig
    (CatalogOperator.reconcile (Catalog.dispatcher d (config.deadline.map .ofDouble)) forgetCopy) ns
    config

/-- The controller of operator sources. -/
def sources (d : Deployer δ) (deleted : DeletionHook δ) (ns : Option Value)
    (config : ControllerConfig) (deadline : Option Double) : Controller δ :=
  ofConfig Kind.operatorSource
    (CatalogOperator.reconcile (Source.dispatcher d (deadline.map .ofDouble)) deleted) ns config

/-- Adds a key, which must be of the kind of the controller. A queue that has been shut down does not
look it up. -/
def enqueue (c : Controller δ) (key : ObjectKey) : Controller δ × Except Fault Unit :=
  if key.kind == .text c.kind then
    if c.queue.closed then (c, .ok ())
    else
      match key.fault? with
      | some f => (c, .error f)
      | none => ({ c with queue := c.queue.add key }, .ok ())
  else
    (c, .error (.invalidArgument ("Controller for " ++ c.kind ++ " cannot handle " ++ key.text)))

/-- The queue after a reconcile of a key has ended. A cancellation leaves it as it is and goes on;
so does a delay that cannot be computed. -/
def conclude (c : Controller δ) (now : Rat) (key : ObjectKey) (ended : Except Fault Bool) :
    Controller δ × Except Fault Unit :=
  let again : Controller δ × Except Fault Unit :=
    let (queue, r) := c.queue.addRateLimited now key
    ({ c with queue }, r)
  match ended with
  | .ok false => ({ c with queue := c.queue.forget key }, .ok ())
  | .ok true => again
  | .error f =>
    if f.isDispatchError then ({ c with queue := c.queue.forget key }, .ok ())
    else if f.isCancellation then (c, .error f)
    else again

/-- Whether a key belongs to the namespace of the controller. -/
def covers (c : Controller δ) (key : ObjectKey) : Bool :=
  c.ns.all fun ns => key.ns.same ns

/-- Adds the keys of the listed objects that belong to the namespace. -/
def addListed (c : Controller δ) (keys : List ObjectKey) : Controller δ :=
  { c with queue := (keys.filter c.covers).foldl (fun q k => q.add k) c.queue }

/-- Whether nothing is queued and nothing is being processed. -/
def isIdle (c : Controller δ) : Bool :=
  c.queue.queue.isEmpty && c.queue.processing.isEmpty

/-- Whether a worker can go on at once. -/
def isRunnable (c : Controller δ) (i : Nat) : Bool :=
  match c.workers[i]? with
  | some .idle => true
  | some .waiting => c.queue.isWoken i
  | _ => false

/-- Starts the workers and the periodic resync. -/
def start (c : Controller δ) (now : Rat) : Controller δ × Except Fault Unit :=
  if c.started then
    (c, .error (.misuse ("Controller for " ++ c.kind ++ " already started")))
  else
    let interval := c.resyncInterval.bind fun x => if Value.isTrue (.float x) then some x else none
    ({ c with
      workers := List.replicate c.workerCount .idle
      resyncDue := interval.bind fun x => (Number.float x).toRat?.map fun s => now + sleepTime s
      started := c.workerCount != 0 || interval.isSome }, .ok ())

end Controller

end CatalogOperator
