import CatalogOperator.WorkQueue

/-!
# `CatalogOperator.Proofs.WorkQueue.Desk`: a queue in the hands of its workers

A `Desk` is a work queue together with the keys that its workers hold. Workers and other clients
make requests in any order: keys are added at once or after a delay, timers fire early or late,
workers ask for keys, wait, give up waiting, and report the keys they got as processed, each once.

* `Desk.step`: one request, with the events it gives rise to. `Desk.Run` strings requests together
  and collects the events as the history of the run.
* `Desk.Change` names all that one request can do to the three containers of the queue while it is
  open, and `Desk.step_change` says that there is nothing else. Every law of the queue is a case
  analysis over these changes.
* `Desk.Schedule`: an endless run. `Desk.Schedule.Fair` says that every key that was handed out is
  reported as processed some time, and that a queue with keys in it is asked for one some time.
-/

set_option autoImplicit false

namespace CatalogOperator.Proofs.Queue

/-! ### What the operations do to the containers -/

section Containers

variable {κ ω : Type}

/-- Turning ready leaves the queued keys as they are. -/
@[simp] theorem signal_queue (q : WorkQueue κ ω) : q.signal.queue = q.queue := by
  unfold WorkQueue.signal
  split <;> rfl

/-- Turning ready leaves the dirty keys as they are. -/
@[simp] theorem signal_dirty (q : WorkQueue κ ω) : q.signal.dirty = q.dirty := by
  unfold WorkQueue.signal
  split <;> rfl

/-- Turning ready leaves the keys being processed as they are. -/
@[simp] theorem signal_processing (q : WorkQueue κ ω) : q.signal.processing = q.processing := by
  unfold WorkQueue.signal
  split <;> rfl

/-- Turning ready does not close the queue. -/
@[simp] theorem signal_closed (q : WorkQueue κ ω) : q.signal.closed = q.closed := by
  unfold WorkQueue.signal
  split <;> rfl

/-- A key is queued at the end. -/
@[simp] theorem push_queue (q : WorkQueue κ ω) (k : κ) : (q.push k).queue = q.queue ++ [k] :=
  signal_queue _

/-- Queueing a key leaves the dirty ones as they are. -/
@[simp] theorem push_dirty (q : WorkQueue κ ω) (k : κ) : (q.push k).dirty = q.dirty :=
  signal_dirty _

/-- Queueing a key leaves those being processed as they are. -/
@[simp] theorem push_processing (q : WorkQueue κ ω) (k : κ) :
    (q.push k).processing = q.processing :=
  signal_processing _

/-- Queueing a key does not close the queue. -/
@[simp] theorem push_closed (q : WorkQueue κ ω) (k : κ) : (q.push k).closed = q.closed :=
  signal_closed _

/-- A queue that is shut down is closed. -/
@[simp] theorem shutdown_closed (q : WorkQueue κ ω) : q.shutdown.closed = true :=
  signal_closed _

variable [DecidableEq κ]

/-- Adding a key leaves those being processed as they are. -/
@[simp] theorem add_processing (q : WorkQueue κ ω) (k : κ) :
    (q.add k).processing = q.processing := by
  unfold WorkQueue.add
  dsimp only
  split
  · rfl
  · split <;> simp

/-- Adding a key does not close the queue. -/
@[simp] theorem add_closed (q : WorkQueue κ ω) (k : κ) : (q.add k).closed = q.closed := by
  unfold WorkQueue.add
  dsimp only
  split
  · rfl
  · split <;> simp

/-- Adding a dirty key changes nothing. -/
theorem add_of_dirty {q : WorkQueue κ ω} {k : κ} (h : k ∈ q.dirty) : q.add k = q := by
  simp [WorkQueue.add, h]

/-- A key that is being processed is only marked. -/
theorem add_of_processing {q : WorkQueue κ ω} {k : κ} (ho : q.closed = false)
    (hd : k ∉ q.dirty) (hp : k ∈ q.processing) :
    q.add k = { q with dirty := q.dirty ++ [k] } := by
  simp [WorkQueue.add, ho, hd, hp]

/-- Any other key goes to the end of the queue. -/
theorem add_of_fresh {q : WorkQueue κ ω} {k : κ} (ho : q.closed = false)
    (hd : k ∉ q.dirty) (hp : k ∉ q.processing) :
    q.add k = WorkQueue.push { q with dirty := q.dirty ++ [k] } k := by
  simp [WorkQueue.add, ho, hd, hp]

/-- A key that was added meanwhile stays dirty when it is reported. -/
@[simp] theorem done_dirty (q : WorkQueue κ ω) (k : κ) : (q.done k).dirty = q.dirty := by
  unfold WorkQueue.done
  dsimp only
  split <;> simp

/-- A key that is reported is no longer being processed. -/
@[simp] theorem done_processing (q : WorkQueue κ ω) (k : κ) :
    (q.done k).processing = q.processing.erase k := by
  unfold WorkQueue.done
  dsimp only
  split <;> simp

/-- Reporting a key does not close the queue. -/
@[simp] theorem done_closed (q : WorkQueue κ ω) (k : κ) : (q.done k).closed = q.closed := by
  unfold WorkQueue.done
  dsimp only
  split <;> simp

/-- A key that was added while it was processed goes to the end of the queue. -/
theorem done_queue {q : WorkQueue κ ω} (ho : q.closed = false) (k : κ) :
    (q.done k).queue = if k ∈ q.dirty then q.queue ++ [k] else q.queue := by
  by_cases h : k ∈ q.dirty <;> simp [WorkQueue.done, h, ho]

/-- Asking for a key does not close the queue. -/
@[simp] theorem get_closed (q : WorkQueue κ ω) (w : ω) : (q.get w).1.closed = q.closed := by
  unfold WorkQueue.get
  split
  · rfl
  · split <;> rfl

/-- Adding a key later does not close the queue. -/
@[simp] theorem addAfter_closed (q : WorkQueue κ ω) (now : Rat) (k : κ) (delay : Number) :
    (q.addAfter now k delay).1.closed = q.closed := by
  unfold WorkQueue.addAfter
  split
  · rfl
  · split
    · exact add_closed q k
    · split <;> rfl

/-- Recording a failure does not close the queue. -/
@[simp] theorem addRateLimited_closed (q : WorkQueue κ ω) (now : Rat) (k : κ) :
    (q.addRateLimited now k).1.closed = q.closed := by
  unfold WorkQueue.addRateLimited
  dsimp only
  split
  · rfl
  · exact addAfter_closed _ now k _

end Containers

/-! ### Requests and their events -/

variable {κ ω : Type}

/-- A work queue and the keys that its workers hold: those that were handed out and not yet reported
as processed, each with the worker that got it. -/
structure Desk (κ ω : Type) where
  queue : WorkQueue κ ω
  held : List (ω × κ) := []

/-- What may happen next at a queue. -/
inductive Request (κ ω : Type) where
  /-- A key is added. -/
  | add (key : κ)
  /-- A key is to be added after a delay. -/
  | addAfter (now : Rat) (key : κ) (delay : Number)
  /-- A key has failed and is to be added after its backoff delay. -/
  | addRateLimited (now : Rat) (key : κ)
  /-- The failures of a key are forgotten. -/
  | forget (key : κ)
  /-- A timer fires. -/
  | fire (t : Timer κ)
  /-- A worker asks for a key. -/
  | get (worker : ω)
  /-- A worker that was woken asks again. -/
  | resume (worker : ω)
  /-- A waiting worker gives up. -/
  | leave (worker : ω)
  /-- A worker reports a key it holds as processed. -/
  | done (worker : ω) (key : κ)
  /-- The queue is shut down. -/
  | shutdown

/-- What can be seen of a request: a key was added, handed out, or reported as processed. -/
inductive QueueEvent (κ ω : Type) where
  | added (key : κ)
  | handed (worker : ω) (key : κ)
  | finished (worker : ω) (key : κ)

/-- The keys handed out in a history, in order. -/
def handedKeys : List (QueueEvent κ ω) → List κ
  | [] => []
  | .handed _ k :: es => k :: handedKeys es
  | _ :: es => handedKeys es

/-- The keys handed out in one history after another are those of both. -/
theorem handedKeys_append (es fs : List (QueueEvent κ ω)) :
    handedKeys (es ++ fs) = handedKeys es ++ handedKeys fs := by
  induction es with
  | nil => rfl
  | cons e es ih => cases e <;> simp [handedKeys, ih]

namespace Desk

/-- The desk of a new queue. -/
def fresh (baseDelay maxDelay : Number) : Desk κ ω :=
  ⟨{ baseDelay, maxDelay }, []⟩

/-- The desk after the queue has answered a worker. -/
def receive (d : Desk κ ω) (worker : ω) (answer : WorkQueue κ ω × Handout κ) :
    Desk κ ω × List (QueueEvent κ ω) :=
  match answer with
  | (q, .key k) => (⟨q, d.held ++ [(worker, k)]⟩, [.handed worker k])
  | (q, _) => (⟨q, d.held⟩, [])

/-- A desk is closed if the queue is that has answered. -/
@[simp] theorem receive_closed (d : Desk κ ω) (w : ω) (answer : WorkQueue κ ω × Handout κ) :
    (d.receive w answer).1.queue.closed = answer.1.closed := by
  obtain ⟨q, a⟩ := answer
  cases a <;> rfl

variable [DecidableEq κ]

/-- The delay after which a key that fails now is added, if it can be computed. -/
def backoff? (d : Desk κ ω) (key : κ) : Option Number :=
  d.queue.backoff? (d.queue.requeues key)

/-- The event of a key with a delay: one that has passed already adds the key at once. -/
def addedAfter (key : κ) (delay : Number) : List (QueueEvent κ ω) :=
  if delay.isAtMostZero then [.added key] else []

variable [DecidableEq ω]

/-- Whether a request can be made: timers fire only while they are pending, only waiting workers go
on or give up, and only a key that is held is reported, once for each time it was handed out. -/
def Permits (d : Desk κ ω) : Request κ ω → Prop
  | .fire t => t ∈ d.queue.timers
  | .get w => ∀ x ∈ d.queue.waiters, x.name ≠ w
  | .resume w => d.queue.isWoken w = true
  | .leave w => ∃ x ∈ d.queue.waiters, x.name = w
  | .done w k => (w, k) ∈ d.held
  | _ => True

/-- The desk after a request, and the events of the request. -/
def step (d : Desk κ ω) : Request κ ω → Desk κ ω × List (QueueEvent κ ω)
  | .add k => (⟨d.queue.add k, d.held⟩, [.added k])
  | .addAfter now k delay => (⟨(d.queue.addAfter now k delay).1, d.held⟩, addedAfter k delay)
  | .addRateLimited now k =>
    (⟨(d.queue.addRateLimited now k).1, d.held⟩, (d.backoff? k).elim [] (addedAfter k))
  | .forget k => (⟨d.queue.forget k, d.held⟩, [])
  | .fire t => (⟨d.queue.fire t, d.held⟩, [.added t.key])
  | .get w => d.receive w (d.queue.get w)
  | .resume w => d.receive w (d.queue.resume w)
  | .leave w => (⟨d.queue.leave w, d.held⟩, [])
  | .done w k => (⟨d.queue.done k, d.held.erase (w, k)⟩, [.finished w k])
  | .shutdown => (⟨d.queue.shutdown, d.held⟩, [])

/-- The runs of a desk: any permitted requests in any order, with their events in order. -/
inductive Run : Desk κ ω → List (QueueEvent κ ω) → Desk κ ω → Prop where
  | refl (d : Desk κ ω) : Run d [] d
  | step {d d' : Desk κ ω} {es : List (QueueEvent κ ω)} (r : Request κ ω) :
    Run d es d' → d'.Permits r → Run d (es ++ (d'.step r).2) (d'.step r).1

/-- An endless run. -/
structure Schedule (d : Desk κ ω) where
  desk : Nat → Desk κ ω
  request : Nat → Request κ ω
  desk_zero : desk 0 = d
  permits : ∀ n, (desk n).Permits (request n)
  desk_succ : ∀ n, desk (n + 1) = ((desk n).step (request n)).1

/-- The workers keep going: each key that was handed out is reported some time, and while there are
keys in the queue a worker asks for one some time. -/
structure Schedule.Fair {d : Desk κ ω} (s : Schedule d) : Prop where
  finishes : ∀ n w k, (w, k) ∈ (s.desk n).held → ∃ m, n ≤ m ∧ s.request m = .done w k
  asks : ∀ n, (s.desk n).queue.queue ≠ [] →
    ∃ m w, n ≤ m ∧ (s.request m = .get w ∨ s.request m = .resume w)

/-! ### The changes of an open queue -/

end Desk

/-- The containers of a desk, without the timers, the waiting workers and the failure counts. -/
structure Containers (κ ω : Type) where
  queue : List κ
  dirty : List κ
  processing : List κ
  held : List (ω × κ)

/-- All that a request can do to the containers of an open queue, with its events. -/
inductive Change [DecidableEq κ] [DecidableEq ω] (c : Containers κ ω) :
    List (QueueEvent κ ω) → Containers κ ω → Prop where
  /-- Nothing happens to any key. -/
  | quiet : Change c [] c
  /-- A key that is dirty already is added. -/
  | coalesced (k : κ) (hd : k ∈ c.dirty) : Change c [.added k] c
  /-- A key is added while it is processed. -/
  | marked (k : κ) (hd : k ∉ c.dirty) (hp : k ∈ c.processing) :
    Change c [.added k] { c with dirty := c.dirty ++ [k] }
  /-- Any other key is added. -/
  | queued (k : κ) (hd : k ∉ c.dirty) (hp : k ∉ c.processing) :
    Change c [.added k] { c with queue := c.queue ++ [k], dirty := c.dirty ++ [k] }
  /-- The first key of the queue is handed out. -/
  | handed (w : ω) (k : κ) (rest : List κ) (hq : c.queue = k :: rest) :
    Change c [.handed w k]
      { queue := rest
        dirty := c.dirty.erase k
        processing := if c.processing.contains k then c.processing else c.processing ++ [k]
        held := c.held ++ [(w, k)] }
  /-- A key is reported as processed. -/
  | finished (w : ω) (k : κ) (hh : (w, k) ∈ c.held) :
    Change c [.finished w k]
      { c with
        queue := if k ∈ c.dirty then c.queue ++ [k] else c.queue
        processing := c.processing.erase k
        held := c.held.erase (w, k) }

namespace Desk

/-- The containers of a desk. -/
def containers (d : Desk κ ω) : Containers κ ω :=
  ⟨d.queue.queue, d.queue.dirty, d.queue.processing, d.held⟩

variable [DecidableEq κ] [DecidableEq ω]

/-- Adding a key is one of three changes. -/
theorem add_change {d : Desk κ ω} (ho : d.queue.closed = false) (k : κ) :
    Change d.containers [.added k] (containers ⟨d.queue.add k, d.held⟩) := by
  by_cases hd : k ∈ d.queue.dirty
  · rw [add_of_dirty hd]
    exact .coalesced k hd
  · by_cases hp : k ∈ d.queue.processing
    · rw [add_of_processing ho hd hp]
      exact .marked k hd hp
    · rw [add_of_fresh ho hd hp]
      have h := Change.queued (c := d.containers) k hd hp
      simpa [containers] using h

/-- A key that is added after a delay is added at once if the delay has passed, and otherwise only a
timer is started. -/
theorem addAfter_change {d : Desk κ ω} (ho : d.queue.closed = false) (now : Rat) (k : κ)
    (delay : Number) :
    Change d.containers (addedAfter k delay)
      (containers ⟨(d.queue.addAfter now k delay).1, d.held⟩) := by
  have hc : ¬ d.queue.closed = true := by simp [ho]
  unfold WorkQueue.addAfter addedAfter
  rw [if_neg hc]
  split
  · exact add_change ho k
  -- A timer is started or refused, which no container shows.
  · split
    · exact .quiet
    · exact .quiet

/-- Asking for a key hands out the first one, if there is one. -/
theorem get_change (d : Desk κ ω) (w : ω) :
    Change d.containers (d.receive w (d.queue.get w)).2
      (d.receive w (d.queue.get w)).1.containers := by
  unfold WorkQueue.get
  split
  · next k rest hq =>
    exact Change.handed (c := d.containers) w k rest hq
  -- With nothing queued the worker is turned away or waits.
  · split
    · exact .quiet
    · exact .quiet

/-- Once shut down, a queue stays so. -/
theorem open_of_step {d : Desk κ ω} {r : Request κ ω} (ho : (d.step r).1.queue.closed = false) :
    d.queue.closed = false := by
  cases r with
  | shutdown => exact absurd ho (by simp [step])
  | _ => simpa [step, WorkQueue.forget, WorkQueue.fire, WorkQueue.resume, WorkQueue.leave] using ho

/-- Whatever is requested of an open queue, its containers change in one of the ways of `Change`. -/
theorem step_change {d : Desk κ ω} {r : Request κ ω} (hr : d.Permits r)
    (ho : (d.step r).1.queue.closed = false) :
    Change d.containers (d.step r).2 (d.step r).1.containers := by
  have ho' := open_of_step ho
  cases r with
  | add k => exact add_change ho' k
  | addAfter now k delay => exact addAfter_change ho' now k delay
  | addRateLimited now k =>
    -- The failure is counted first, which no container shows.
    simp only [step, backoff?, WorkQueue.addRateLimited]
    cases h : d.queue.backoff? (d.queue.requeues k) with
    | none =>
      have h' : WorkQueue.backoff? { d.queue with
          failures := d.queue.failures.insert k (d.queue.requeues k + 1) }
          (d.queue.requeues k) = none := h
      rw [h']
      exact .quiet
    | some delay =>
      have h' : WorkQueue.backoff? { d.queue with
          failures := d.queue.failures.insert k (d.queue.requeues k + 1) }
          (d.queue.requeues k) = some delay := h
      rw [h']
      exact addAfter_change (d := ⟨{ d.queue with
        failures := d.queue.failures.insert k (d.queue.requeues k + 1) }, d.held⟩) ho' now k delay
  | forget k => exact .quiet
  | fire t =>
    exact add_change (d := ⟨{ d.queue with timers := d.queue.timers.erase t }, d.held⟩) ho'
      t.key
  | get w => exact get_change d w
  | resume w => exact get_change ⟨d.queue.leave w, d.held⟩ w
  | leave w => exact .quiet
  | done w k =>
    show Change _ [.finished w k] (containers ⟨d.queue.done k, d.held.erase (w, k)⟩)
    rw [containers, containers, done_queue ho', done_dirty, done_processing]
    exact .finished w k hr
  | shutdown => simp [step] at ho

end Desk

end CatalogOperator.Proofs.Queue
