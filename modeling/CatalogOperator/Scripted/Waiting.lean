import CatalogOperator.WorkQueue

/-!
# `CatalogOperator.Scripted.Waiting`: a queue with named workers

Workers are known by name, and what each of them gets is noted. Whenever something has happened, every
worker that was woken goes on, first come first served.

* `Waiting`: a queue with what its workers got.
* `Waiting.settle`: the woken workers go on.
* `Waiting.advance`: time passes.
-/

set_option autoImplicit false

namespace CatalogOperator

/-- A queue of named keys and named workers, the time, and what the workers got. -/
structure Waiting where
  queue : WorkQueue String String
  now : Rat := 0
  got : List (String × Handout String) := []

namespace Waiting

/-- What a worker got is noted, unless it has to wait. -/
def note (w : Waiting) (worker : String) (r : WorkQueue String String × Handout String) : Waiting :=
  match r.2 with
  | .wait => { w with queue := r.1 }
  | a => { w with queue := r.1, got := w.got ++ [(worker, a)] }

/-- A worker asks for a key. -/
def get (w : Waiting) (worker : String) : Waiting :=
  w.note worker (w.queue.get worker)

/-- Every woken worker goes on. -/
def settle (w : Waiting) : Waiting :=
  ((w.queue.waiters.filter (·.woken)).map (·.name)).foldl
    (fun w worker => w.note worker (w.queue.resume worker)) w

/-- The next timer that falls due by the given time. -/
def dueBy? (w : Waiting) (time : Rat) : Option (Timer String × Rat) :=
  w.queue.nextTimer?.bind fun t => t.due.bind fun due => if due ≤ time then some (t, due) else none

/-- Time passes until the given time, with as many timers on the way as the given number. -/
def advanceTo (time : Rat) : Nat → Waiting → Waiting
  | 0, w => { w with now := time }
  | count + 1, w =>
    match w.dueBy? time with
    | none => { w with now := time }
    | some (t, due) => advanceTo time count { w with now := due, queue := w.queue.fire t }.settle

/-- Time passes. -/
def advance (w : Waiting) (seconds : Rat) : Waiting :=
  w.advanceTo (w.now + seconds) w.queue.timers.length

/-- A key fails a number of times, until one of the delays cannot be computed. -/
def fail (w : Waiting) (key : String) : Nat → Waiting × Except Fault Unit
  | 0 => (w, .ok ())
  | times + 1 =>
    match w.queue.addRateLimited w.now key with
    | (queue, .error f) => ({ w with queue }, .error f)
    | (queue, .ok ()) => fail { w with queue } key times

end Waiting

/-- A delay in whole microseconds. A half goes to the even neighbour. -/
def microseconds? (d : Number) : Option Int :=
  d.toDouble?.bind fun x => ((x.mul (.ofRat 1000000)).toRat?).map roundHalfEven

end CatalogOperator
