import CatalogOperator.Operator.Basic

/-!
# `CatalogOperator.Operator.Schedule`: letting an operator run

An operator left to itself takes every step that is possible at once: events are routed first, then
the workers go on in order. When nothing is left to do, time passes until the next thing falls due.
This is one of the many orders in which an operator may move; it only takes steps of `Operator.step`.

Besides, keys can be reconciled in the foreground, without a worker. Time passes while such a
reconcile sleeps.

* `Operator.advance`: lets time pass.
* `Operator.waitIdle`: lets time pass until the operator is idle.
* `Operator.process`: reconciles a key in the foreground.
* `Operator.drain`: works a queue off in the foreground.
* `Operator.settle`: routes and works until nothing is left to do.
-/

set_option autoImplicit false

namespace CatalogOperator

namespace Operator

variable {δ α : Type}

/-- The steps of one controller that may be possible at once. -/
def workMoves (o : Operator δ) : List Move :=
  o.controllers.zipIdx.flatMap fun (c, i) =>
    (List.range c.workers.length).map fun j => .work i j

/-- The first step that is possible now without anything falling due. -/
def readyMove? (o : Operator δ) : Option Move :=
  (.route :: o.workMoves).find? fun m => o.canStep m

/-- What falls due at one controller, and when. -/
def dueMoves (i : Nat) (c : Controller δ) : List (Rat × Move) :=
  let fire := ((c.queue.nextTimer?).bind (·.due)).toList.map fun t => (t, Move.fire i)
  let resync := c.resyncDue.toList.map fun t => (t, Move.resync i)
  let wake := c.workers.zipIdx.filterMap fun (w, j) =>
    match w with
    | .busy _ t _ => some (t, Move.wake i j)
    | _ => none
  fire ++ wake ++ resync

/-- The step that falls due first, and when. -/
def nextDue? (o : Operator δ) : Option (Rat × Move) :=
  match o.controllers.zipIdx.flatMap fun (c, i) => dueMoves i c with
  | [] => none
  | d :: rest => some (rest.foldl (fun a b => if b.1 < a.1 then b else a) d)

/-- Takes the steps that are possible at once, as many as the given number. -/
def runReady : Nat → Operator δ → Operator δ
  | 0, o => o
  | fuel + 1, o =>
    match o.readyMove? with
    | some m => runReady fuel (o.step m)
    | none => o

/-- Lets time pass until the given time, taking every step on the way, as many as the given number. -/
def advance : Nat → Rat → Operator δ → Operator δ
  | 0, _, o => o
  | fuel + 1, until_, o =>
    match o.readyMove? with
    | some m => advance fuel until_ (o.step m)
    | none =>
      match o.nextDue? with
      | some (due, m) =>
        if due ≤ until_ then advance fuel until_ ((o.step (.tick (due - o.now))).step m)
        else o.step (.tick (until_ - o.now))
      | none => o.step (.tick (until_ - o.now))

/-- Lets time pass for a number of seconds. -/
def sleep (fuel : Nat) (seconds : Rat) (o : Operator δ) : Operator δ :=
  advance fuel (o.now + sleepTime seconds) o

/-- The seconds between two looks at whether the operator is idle. -/
def idleInterval : Rat := 1 / 100

/-- Lets time pass until the operator is idle, for as many looks as the given number. -/
def waitIdle (fuel : Nat) : Nat → Operator δ → Operator δ
  | 0, o => o
  | looks + 1, o => if o.isIdle then o else waitIdle fuel looks (o.sleep fuel idleInterval)

/-- Follows a run to its end. Time passes while it sleeps. -/
def runToEnd (fuel : Nat) (o : Operator δ) : Run (Shared δ) α → Operator δ × α
  | .finished shared a => ({ o with shared }, a)
  | .asleep shared seconds resume =>
    let o := { o with shared }.sleep fuel seconds
    runToEnd fuel o (resume .elapsed o.shared)

/-- Reconciles a key in the foreground. -/
def reconcileNow (fuel i : Nat) (key : ObjectKey) : Call (Operator δ) Bool :=
  .ofFunction fun o =>
    match o.controllers[i]? with
    | none => (o, .error (.misuse "no such controller"))
    | some c => o.runToEnd fuel ((c.reconcile key).run o.shared)

/-- Reconciles a key in the foreground and lets the queue know. -/
def process (fuel i : Nat) (key : ObjectKey) : Call (Operator δ) Unit :=
  .ofFunction fun o =>
    let (o, ended) := (reconcileNow fuel i key).runOn o
    o.conclude i key ended

/-- The number of failures that a controller has recorded for a key. -/
def requeues (o : Operator δ) (i : Nat) (key : ObjectKey) : Nat :=
  (o.controllers[i]?).elim 0 fun c => c.queue.requeues key

/-- Takes the first key of a queue. -/
def takeKey? (o : Operator δ) (i : Nat) : Option (ObjectKey × Operator δ) :=
  match o.controllers[i]? with
  | none => none
  | some c =>
    match c.queue.queue with
    | [] => none
    | key :: rest =>
      some (key, o.modifyController i fun c => { c with queue := c.queue.take key rest })

/-- Works a queue off in the foreground, as many keys as the given number, and tells each key with the
number of failures recorded for it afterwards. -/
def drain (fuel i : Nat) : Nat → Call (Operator δ) (List (ObjectKey × Nat))
  | 0 => pure []
  | limit + 1 => do
    match (← MonadState.get : Operator δ).takeKey? i with
    | none => pure []
    | some (key, o) =>
      MonadState.set o
      let finish : Call (Operator δ) Unit :=
        modify fun o => o.modifyController i fun c => { c with queue := c.queue.done key }
      try process fuel i key
      catch f =>
        finish
        throw f
      finish
      let count := (← MonadState.get : Operator δ).requeues i key
      return (key, count) :: (← drain fuel i limit)

/-- An operation with one more controller, which is gone afterwards. -/
def withController (c : Controller δ) (f : Nat → Call (Operator δ) α) : Call (Operator δ) α :=
  .ofFunction fun o =>
    let count := o.controllers.length
    let (o, r) := (f count).runOn { o with controllers := o.controllers ++ [c] }
    ({ o with controllers := o.controllers.take count }, r)

/-- Handles every event that waits in the feed. -/
def pump (o : Operator δ) : Operator δ :=
  (router o.ns).handleSome feed setFeed o.feed.events.length o

/-- Works the queues of the given controllers off, one after the other. -/
def drainAll (fuel limit : Nat) : List Nat → Call (Operator δ) (List (ObjectKey × Nat))
  | [] => pure []
  | i :: rest => do
    let done ← drain fuel i limit
    return done ++ (← drainAll fuel limit rest)

/-- Routes all events and works all queues off, round after round, until a round finds nothing to do.
Tells what each of the other rounds did. -/
def settle (fuel limit : Nat) : Nat → Call (Operator δ) (List (List (ObjectKey × Nat)))
  | 0 => pure []
  | rounds + 1 => do
    modify pump
    let o ← MonadState.get
    let done ← drainAll fuel limit (List.range o.controllers.length)
    let o ← MonadState.get
    if done.isEmpty && o.feed.pending = 0 then return []
    else return done :: (← settle fuel limit rounds)

end Operator

end CatalogOperator
