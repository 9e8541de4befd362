import CatalogOperator.Operator.Controller
import CatalogOperator.Watch.Router

/-!
# `CatalogOperator.Operator.Basic`: the operator and its moves

The operator consists of the shared state, the controllers, and the routing of watch events to the
controllers. Nothing in it happens at a fixed time relative to anything else: it moves by steps, any
of which may come next.

* `Operator.router`: the mappers and sinks of the operator.
* `Move`: the steps. `Operator.step` takes one and leaves the operator as it is if the step is not
  possible.
* `Operator.init`: the operator before it is started.
* `Operator.isIdle`: no event is pending, and no key is queued or being processed.
-/

set_option autoImplicit false

namespace CatalogOperator

/-- The operator: the shared state, the controllers, the namespace it watches, the time, the number
of routers that run, the watcher that was attached last, whether a router was started for it, and the
delays that failed keys were given, in order. -/
structure Operator (δ : Type) where
  shared : Shared δ
  controllers : List (Controller δ)
  ns : Option Value
  now : Rat := 0
  routers : Nat := 0
  watcher : Option Nat := none
  routing : Bool := false
  delays : List Number := []

/-- The steps of a running operator. Controllers and workers are given by number. -/
inductive Move where
  /-- A router handles the next event. -/
  | route
  /-- A worker goes on: it asks for a key, or takes one it has been woken for, and reconciles it as
  far as it gets. -/
  | work (controller worker : Nat)
  /-- A worker wakes up inside a reconcile. -/
  | wake (controller worker : Nat)
  /-- The earliest delayed key of a controller falls due. -/
  | fire (controller : Nat)
  /-- A periodic resync is due. -/
  | resync (controller : Nat)
  /-- Time passes. -/
  | tick (seconds : Rat)
  deriving Repr

namespace Operator

variable {δ : Type}

/-- A change of one controller. -/
def modifyController (o : Operator δ) (i : Nat) (f : Controller δ → Controller δ) : Operator δ :=
  { o with controllers := o.controllers.modify i f }

/-- The number of the controller of a kind. -/
def controllerOf? (o : Operator δ) (kind : String) : Option Nat :=
  o.controllers.findIdx? fun c => c.kind == kind

/-- An operation on one controller. -/
def onController {α : Type} (i : Nat) (f : Controller δ → Controller δ × Except Fault α) :
    Call (Operator δ) α :=
  .ofFunction fun o =>
    match o.controllers[i]? with
    | none => (o, .error (.misuse "no such controller"))
    | some c => let (c, r) := f c; (o.modifyController i fun _ => c, r)

/-- The feed of watch events. -/
def feed (o : Operator δ) : Feed :=
  o.shared.cluster.feed

/-- The operator with another feed. -/
def setFeed (feed : Feed) (o : Operator δ) : Operator δ :=
  { o with shared := { o.shared with cluster := { o.shared.cluster with feed } } }

/-- The operator with another shared state. -/
def setShared (shared : Shared δ) (o : Operator δ) : Operator δ :=
  { o with shared }

/-- The operator with its shared state changed. -/
def mapShared (f : Shared δ → Shared δ) (o : Operator δ) : Operator δ :=
  o.setShared (f o.shared)

/-- The sink of a kind: the key is added to the queue of its controller. -/
def sink (kind : String) (key : ObjectKey) : Call (Operator δ) Unit :=
  fun o =>
    match o.controllerOf? kind with
    | none => (.error (.misuse "no such controller"), o)
    | some i => onController i (fun c => c.enqueue key) o

/-- The mappers and the sinks of an operator that watches a namespace. -/
def router (ns : Option Value) : Router (Operator δ) where
  mappers := [.own (.text Kind.operatorSource) ns, .own (.text Kind.catalogSourceConfig) ns,
    .childDeletion,
    Mapper.onCluster (.clusterProxy [Kind.operatorSource, Kind.catalogSourceConfig] ns)
      |>.zoom (·.shared) setShared,
    (Mapper.onTracker .hub).zoom (·.shared) setShared]
  sinks := Table.ofList ([Kind.catalogSourceConfig, Kind.operatorSource].map fun k =>
    (.text k, sink k))

/-- Handles the next event, if there is one. -/
def routeNext? (o : Operator δ) : Option (Operator δ) :=
  (router o.ns).handleNext feed setFeed o

/-- A worker put in the place of another one. -/
def setWorker (o : Operator δ) (i j : Nat) (w : Worker δ) : Operator δ :=
  o.modifyController i fun c => { c with workers := c.workers.set j w }

/-- The operator after a reconcile of a key has ended: the queue of the controller knows about it, and
the delay it may have asked for is remembered. -/
def conclude (o : Operator δ) (i : Nat) (key : ObjectKey) (ended : Except Fault Bool) :
    Operator δ × Except Fault Unit :=
  match o.controllers[i]? with
  | none => (o, .ok ())
  | some c =>
    let (c, r) := c.conclude o.now key ended
    let c' := { c with queue := { c.queue with delays := [] } }
    ({ o.modifyController i fun _ => c' with delays := o.delays ++ c.queue.delays }, r)

/-- The operator after a worker's reconcile of a key has got as far as it gets. A worker whose reconcile
was cancelled, or cannot be tried again, comes to its end. -/
def follow (o : Operator δ) (i j : Nat) (key : ObjectKey)
    (run : Run (Shared δ) (Except Fault Bool)) : Operator δ :=
  match run with
  | .asleep shared seconds resume =>
    { o with shared }.setWorker i j (.busy key (o.now + sleepTime seconds) resume)
  | .finished shared ended =>
    let (o, r) := { o with shared }.conclude i key ended
    let next : Worker δ := match r with
      | .ok () => .idle
      | .error _ => .ended
    (o.modifyController i fun c => { c with queue := c.queue.done key }).setWorker i j next

/-- What a worker does with the answer of the queue. -/
def receive (o : Operator δ) (i j : Nat) (c : Controller δ) (a : Handout ObjectKey) : Operator δ :=
  match a with
  | .key k => o.follow i j k ((c.reconcile k).run o.shared)
  | .closed => o.setWorker i j .ended
  | .wait => o.setWorker i j .waiting

/-- A worker asks for a key and goes on with the answer. -/
def work (o : Operator δ) (i j : Nat) : Operator δ :=
  match o.controllers[i]? with
  | none => o
  | some c =>
    if c.isRunnable j then
      let (queue, a) := match c.workers[j]? with
        | some .waiting => c.queue.resume j
        | _ => c.queue.get j
      (o.modifyController i fun c => { c with queue }).receive i j c a
    else o

/-- A worker asleep in a reconcile, with its key, its time and what it goes on with. -/
def sleeper? (o : Operator δ) (i j : Nat) :
    Option (ObjectKey × Rat × (Wake → Shared δ → Run (Shared δ) (Except Fault Bool))) :=
  match (o.controllers[i]?).bind fun c => c.workers[j]? with
  | some (.busy key wakeAt resume) => some (key, wakeAt, resume)
  | _ => none

/-- A worker wakes up inside a reconcile. -/
def resumeWorker (o : Operator δ) (i j : Nat) (w : Wake) : Operator δ :=
  match o.sleeper? i j with
  | some (key, _, resume) => o.follow i j key (resume w o.shared)
  | none => o

/-- Adds every resource of the kind of a controller that belongs to its namespace. -/
def resyncNow (i : Nat) : Call (Operator δ) Unit :=
  fun o =>
    match o.controllers[i]? with
    | none => (.ok (), o)
    | some c =>
      let (cluster, listed) := (Cluster.list (.text c.kind)).runOn o.shared.cluster
      let o := { o with shared := { o.shared with cluster } }
      match listed with
      | .error f => (.error f, o)
      | .ok ms =>
        match Mapper.keysOf ms with
        | .error f => (.error f, o)
        | .ok keys => (.ok (), o.modifyController i fun c => c.addListed keys)

/-- A periodic resync. A failed store call is passed over; any other fault ends the resyncs. -/
def resyncTurn (o : Operator δ) (i : Nat) : Operator δ :=
  let (r, o') := resyncNow i o
  let goesOn := match r with
    | .ok () => true
    | .error f => f.isStoreFailure
  o'.modifyController i fun c =>
    let interval := (c.resyncInterval.bind fun x => (Number.float x).toRat?)
    { c with resyncDue := if goesOn then interval.map fun s => o.now + sleepTime s else none }

/-- The earliest delayed key of a controller falls due. -/
def fireTimer (o : Operator δ) (i : Nat) : Operator δ :=
  o.modifyController i fun c =>
    match c.queue.nextTimer? with
    | none => c
    | some t => { c with queue := c.queue.fire t }

/-- Whether a step is possible now. -/
def canStep (o : Operator δ) : Move → Bool
  | .route => o.routers != 0 && !o.feed.events.isEmpty
  | .work i j => (o.controllers[i]?).any fun c => c.isRunnable j
  | .wake i j => (o.sleeper? i j).any fun s => s.2.1 ≤ o.now
  | .fire i =>
    (((o.controllers[i]?).bind fun c => c.queue.nextTimer?).bind (·.due)).any fun due => due ≤ o.now
  | .resync i => ((o.controllers[i]?).bind (·.resyncDue)).any fun due => due ≤ o.now
  | .tick seconds => 0 ≤ seconds

/-- One step. A step that is not possible leaves the operator as it is. -/
def step (o : Operator δ) (m : Move) : Operator δ :=
  if o.canStep m then
    match m with
    | .route => o.routeNext?.getD o
    | .work i j => o.work i j
    | .wake i j => o.resumeWorker i j .elapsed
    | .fire i => o.fireTimer i
    | .resync i => o.resyncTurn i
    | .tick seconds => { o with now := o.now + seconds }
  else o

/-- Whether no event is pending and no key is queued or being processed. -/
def isIdle (o : Operator δ) : Bool :=
  o.feed.pending == 0 && o.controllers.all (·.isIdle)

/-- The operator over a cluster, before it is started. -/
def init (cluster : Cluster δ) (d : Deployer δ) (config : OperatorConfig) : Operator δ :=
  let ns : Option Value := some (.text config.ns)
  { shared := { cluster := { cluster with
      proxy := { cluster.proxy with available := config.proxyAvailable } } }
    controllers := [.catalogs d ns config.catalogs,
      .sources d Controller.forgetSource ns config.sources config.sources.deadline]
    ns }

/-- A call on the cluster. -/
def callCluster {α : Type} (c : Call (Cluster δ) α) : Call (Operator δ) α :=
  c.zoom (·.shared.cluster) fun cluster o => { o with shared := { o.shared with cluster } }

end Operator

end CatalogOperator
