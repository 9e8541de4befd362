import CatalogOperator.Fault
import CatalogOperator.Number.Basic
import CatalogOperator.Table

/-!
# `CatalogOperator.WorkQueue`: the queue of keys to be processed

A key is dirty from the moment it is added until it is handed out. A dirty key that is not being
processed is queued; one that is being processed is queued again when it is done. So a key is queued
at most once and never handed to two workers.

A worker that finds the queue empty waits. All waiting workers are woken when the queue turns ready;
the first one to resume takes the key, and the others wait again. Failed keys come back after a delay
that doubles with each failure. After shutdown the queue stays empty.

* `WorkQueue.add`, `WorkQueue.done`: putting keys in.
* `WorkQueue.get`, `WorkQueue.resume`: asking for a key, and asking again after a wait.
* `WorkQueue.addRateLimited`: adds a key after its backoff delay.
* `WorkQueue.fire`: a delayed key falls due.
* `WorkQueue.shutdown`: nothing is accepted any more, and every waiting worker is released.
-/

set_option autoImplicit false

namespace CatalogOperator

/-- A key that is added later. One whose delay is no finite number never falls due. -/
structure Timer (κ : Type) where
  key : κ
  due : Option Rat
  deriving DecidableEq, Repr, Inhabited

/-- A worker that waits for a key, and whether it has been woken. -/
structure Waiter (ω : Type) where
  name : ω
  woken : Bool := false
  deriving DecidableEq, Repr, Inhabited

/-- A queue of keys with per-key backoff. `delays` lists the delays that timers were started with. -/
structure WorkQueue (κ ω : Type) where
  baseDelay : Number
  maxDelay : Number
  queue : List κ := []
  dirty : List κ := []
  processing : List κ := []
  failures : Table κ Nat := Table.empty
  timers : List (Timer κ) := []
  ready : Bool := false
  waiters : List (Waiter ω) := []
  closed : Bool := false
  delays : List Number := []

/-- What a worker gets when it asks for a key. -/
inductive Handout (κ : Type) where
  | key (k : κ)
  | closed
  | wait
  deriving DecidableEq, Repr, Inhabited

namespace WorkQueue

variable {κ ω : Type}

/-- The backoff a queue has if nothing else is asked for. -/
def defaultBaseDelay : Number := .float (.ofRat (5 / 1000))
def defaultMaxDelay : Number := .float (.ofRat 1000)

/-- Turns the queue ready, which wakes every waiting worker. A queue that is ready already wakes no
one again. -/
def signal (q : WorkQueue κ ω) : WorkQueue κ ω :=
  if q.ready then q
  else { q with ready := true, waiters := q.waiters.map fun w => { w with woken := true } }

/-- Queues a key. -/
def push (q : WorkQueue κ ω) (key : κ) : WorkQueue κ ω :=
  signal { q with queue := q.queue ++ [key] }

/-- Stops accepting keys, forgets the queued and the delayed ones, and releases the waiting
workers. -/
def shutdown (q : WorkQueue κ ω) : WorkQueue κ ω :=
  signal { q with closed := true, timers := [], queue := [] }

variable [DecidableEq κ]

/-- Marks a key as needing processing. -/
def add (q : WorkQueue κ ω) (key : κ) : WorkQueue κ ω :=
  if q.closed || q.dirty.contains key then q
  else
    let q := { q with dirty := q.dirty ++ [key] }
    if q.processing.contains key then q else q.push key

/-- Hands out the first queued key. -/
def take (q : WorkQueue κ ω) (key : κ) (rest : List κ) : WorkQueue κ ω :=
  { q with
    queue := rest
    processing := if q.processing.contains key then q.processing else q.processing ++ [key]
    dirty := q.dirty.erase key }

/-- A worker asks for a key. If there is none it waits. -/
def get (q : WorkQueue κ ω) (worker : ω) : WorkQueue κ ω × Handout κ :=
  match q.queue with
  | key :: rest => (q.take key rest, .key key)
  | [] =>
    if q.closed then (q, .closed)
    else ({ q with ready := false, waiters := q.waiters ++ [{ name := worker }] }, .wait)

/-- Whether a worker has been woken. -/
def isWoken [DecidableEq ω] (q : WorkQueue κ ω) (worker : ω) : Bool :=
  q.waiters.any fun w => w.name == worker && w.woken

/-- A worker stops waiting. -/
def leave [DecidableEq ω] (q : WorkQueue κ ω) (worker : ω) : WorkQueue κ ω :=
  { q with waiters := q.waiters.eraseP fun w => w.name == worker }

/-- A woken worker asks again. -/
def resume [DecidableEq ω] (q : WorkQueue κ ω) (worker : ω) : WorkQueue κ ω × Handout κ :=
  (q.leave worker).get worker

/-- Marks a key as processed. One that was added meanwhile is queued. -/
def done (q : WorkQueue κ ω) (key : κ) : WorkQueue κ ω :=
  let q := { q with processing := q.processing.erase key }
  if q.dirty.contains key && !q.closed then q.push key else q

/-- Adds a key after a delay. A whole delay beyond the range of the doubles is refused. -/
def addAfter (q : WorkQueue κ ω) (now : Rat) (key : κ) (delay : Number) :
    WorkQueue κ ω × Except Fault Unit :=
  if q.closed then (q, .ok ())
  else if delay.isAtMostZero then (q.add key, .ok ())
  else
    match delay.toDouble? with
    | none => (q, .error (.overflow "int too large to convert to float"))
    | some _ =>
      ({ q with
        timers := q.timers ++ [{ key, due := delay.toRat?.map (now + ·) }]
        delays := q.delays ++ [delay] }, .ok ())

/-- The number of failures recorded for a key. -/
def requeues (q : WorkQueue κ ω) (key : κ) : Nat :=
  (q.failures.find? key).getD 0

/-- The delay after the given number of earlier failures, if it can be computed. -/
def backoff? (q : WorkQueue κ ω) (failures : Nat) : Option Number :=
  (q.baseDelay.doubled failures).map fun d => d.min q.maxDelay

/-- Records a failure of a key and adds it after its backoff delay. -/
def addRateLimited (q : WorkQueue κ ω) (now : Rat) (key : κ) : WorkQueue κ ω × Except Fault Unit :=
  let failures := q.requeues key
  let q := { q with failures := q.failures.insert key (failures + 1) }
  match q.backoff? failures with
  | none => (q, .error (.overflow "int too large to convert to float"))
  | some delay => q.addAfter now key delay

/-- Forgets the failures of a key. -/
def forget (q : WorkQueue κ ω) (key : κ) : WorkQueue κ ω :=
  { q with failures := q.failures.erase key }

/-- A delayed key falls due. -/
def fire (q : WorkQueue κ ω) (t : Timer κ) : WorkQueue κ ω :=
  add { q with timers := q.timers.erase t } t.key

/-- The timer of two that falls due first, the former of them on a tie. -/
def earlier (a b : Timer κ) : Timer κ :=
  match a.due, b.due with
  | some s, some t => if t < s then b else a
  | none, some _ => b
  | _, none => a

/-- The timer that falls due first. -/
def nextTimer? (q : WorkQueue κ ω) : Option (Timer κ) :=
  match q.timers with
  | [] => none
  | t :: rest => some (rest.foldl earlier t)

end WorkQueue

end CatalogOperator
