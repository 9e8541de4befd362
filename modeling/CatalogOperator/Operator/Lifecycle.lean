import CatalogOperator.Operator.Schedule

/-!
# `CatalogOperator.Operator.Lifecycle`: starting and stopping an operator

Starting an operator takes the proxy values over, attaches a watcher to the store, and starts a router
and the workers. Nothing runs before time passes. Stopping it detaches the watcher, stops the router
with whatever it has not routed yet, and shuts the queues down; reconciles under way are cancelled.

* `Operator.start`, `Operator.close`.
* `Operator.attach`, `Operator.detach`: the watcher alone.
* `Operator.closeController`: one controller.
-/

set_option autoImplicit false

namespace CatalogOperator

namespace Operator

variable {δ : Type}

/-- Attaches a watcher to the store. -/
def attach (o : Operator δ) : Operator δ :=
  let (cluster, number) := o.shared.cluster.attach
  { o with shared := { o.shared with cluster }, watcher := some number }

/-- Detaches the watcher that was attached last. -/
def detach (o : Operator δ) : Operator δ :=
  match o.watcher with
  | none => o
  | some number =>
    { o with
      shared := { o.shared with cluster := o.shared.cluster.detach number }
      watcher := none }

/-- Starts one controller. -/
def startController (i : Nat) : Call (Operator δ) Unit :=
  fun o => onController i (fun c => c.start o.now) o

/-- Starts the controllers one after the other. -/
def startControllers : List Nat → Call (Operator δ) Unit
  | [] => pure ()
  | i :: rest => do
    startController i
    startControllers rest

/-- Takes the proxy values over, provided the cluster serves them. -/
def refreshIfAvailable : Call (Operator δ) Unit := do
  if (← MonadState.get : Operator δ).shared.cluster.proxy.available then
    let _ ← callCluster Cluster.refreshProxy
    return ()

/-- Starts the operator. -/
def start : Call (Operator δ) Unit := do
  refreshIfAvailable
  modify fun o => { o.attach with routers := o.routers + 1, routing := true }
  startControllers (List.range (← MonadState.get : Operator δ).controllers.length)

/-- Ends one worker. One that waits for a key leaves the queue, and a reconcile under way is
cancelled. -/
def endWorker (i : Nat) (o : Operator δ) (j : Nat) : Operator δ :=
  match (o.controllers[i]?).bind fun c => c.workers[j]? with
  | some .waiting =>
    (o.modifyController i fun c => { c with queue := c.queue.leave j }).setWorker i j .ended
  | some (.busy _ _ _) => o.resumeWorker i j .cancelled
  | _ => o.setWorker i j .ended

/-- Shuts the queue of a controller down and ends its workers and its periodic resync. -/
def closeController (o : Operator δ) (i : Nat) : Operator δ :=
  let o := o.modifyController i fun c => { c with queue := c.queue.shutdown }
  let count := (o.controllers[i]?).elim 0 fun c => c.workers.length
  ((List.range count).foldl (endWorker i) o).modifyController i fun c =>
    { c with workers := [], resyncDue := none, started := false }

/-- Stops the router that was started last. Whatever can go on at once goes on before it has
stopped. -/
def stopRouting (fuel : Nat) (o : Operator δ) : Operator δ :=
  if o.routing then runReady fuel { o with routers := o.routers - 1, routing := false } else o

/-- Stops the operator. -/
def close (fuel : Nat) (o : Operator δ) : Operator δ :=
  let o := o.detach.stopRouting fuel
  (List.range o.controllers.length).foldl closeController o

end Operator

end CatalogOperator
