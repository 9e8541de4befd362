import CatalogOperator.Reconcile.Basic

/-!
# `CatalogOperator.Reconcile.Dispatcher`: one reconciler for each phase

A dispatcher hands a resource to the reconciler of its phase and to no other. It sees to the deadline
of a reconcile, and turns a failed store call into a verdict that keeps the phase: the message goes
into the phase, except that a succeeded resource stays as it was.

The clock counts in doubles. A deadline that is too large a whole number for one is noticed only when a
reconcile is about to begin.

* `Deadline`: a deadline that the clock can count to.
* `Dispatcher.ofList?`: a dispatcher has at most one reconciler for a phase.
* `Dispatcher.dispatch`: finds the reconciler and invokes it.
* `Dispatcher.invoke`: invokes a given reconciler, provided its phase is that of the resource.
-/

set_option autoImplicit false

namespace CatalogOperator

/-- A deadline in seconds that the clock can count to: any double, and any whole number that is not
beyond the doubles. -/
structure Deadline where
  number : Number
  hasDouble : number.toDouble?.isSome = true

/-- A double as a deadline. -/
def Deadline.ofDouble (x : Double) : Deadline where
  number := .float x
  hasDouble := rfl

/-- The reconcilers by their phase, and the deadline of one reconcile in seconds. -/
structure Dispatcher (σ R : Type) where
  table : Table String (Reconciler σ R)
  limit : Option Number := none

namespace Dispatcher

variable {σ R : Type}

/-- The table of a list of reconcilers. -/
def tableOf? (table : Table String (Reconciler σ R)) :
    List (Reconciler σ R) → Except Fault (Table String (Reconciler σ R))
  | [] => .ok table
  | r :: rest =>
    if table.contains r.phase then
      .error (.invalidArgument ("Duplicate reconciler for phase " ++ r.phase))
    else tableOf? (table.insert r.phase r) rest

/-- The dispatcher for a list of reconcilers, no two of them for one phase. -/
def ofList? (reconcilers : List (Reconciler σ R)) (limit : Option Number) :
    Except Fault (Dispatcher σ R) :=
  (tableOf? Table.empty reconcilers).map fun table => { table, limit }

/-- The phases that have a reconciler. -/
def phases (d : Dispatcher σ R) : List String :=
  d.table.keys

/-- The seconds until the clock reaches a deadline. One that is not above zero has been reached, and so
has the one that is no number. An infinite one is never reached. -/
def secondsUntil? (deadline : Double) : Option Rat :=
  if (Double.zero false).lt deadline then deadline.toRat? else some 0

/-- The seconds a reconcile has, if its deadline is ever reached. -/
def seconds? (d : Dispatcher σ R) : Option Rat :=
  d.limit.bind fun n => n.toDouble?.bind secondsUntil?

/-- The fault of a deadline that the clock cannot count to. -/
def limitFault? (d : Dispatcher σ R) : Option Fault :=
  if d.limit.any fun n => n.toDouble?.isNone then
    some (.overflow "int too large to convert to float")
  else none

/-- The deadline as it is shown. -/
def limitText (d : Dispatcher σ R) : String :=
  match d.limit with
  | none => "0"
  | some n => if n.isZero then "0" else n.text

end Dispatcher

section

variable {σ Spec Packages : Type} [ManagedKind Spec Packages]

/-- Checks that a resource is in the phase of a reconciler. -/
def Reconciler.checkPhase (rec : Reconciler σ (Managed Spec Packages))
    (r : Managed Spec Packages) : Except Fault Unit :=
  if r.phase.name == .text rec.phase then .ok ()
  else .error (.wrongPhase r.key.text rec.phase r.phase.name.plain)

namespace Dispatcher

variable (d : Dispatcher σ (Managed Spec Packages))

/-- The reconciler for the phase of a resource. -/
def reconcilerFor (r : Managed Spec Packages) :
    Except Fault (Reconciler σ (Managed Spec Packages)) :=
  match r.phase.name with
  | .text phase =>
    match d.table.find? phase with
    | some rec => .ok rec
    | none => .error (.unhandledPhase r.key.text phase)
  | v =>
    if v.isScalar then .error (.unhandledPhase r.key.text v.plain) else .error (Fault.notAKey v)

/-- How a reconcile came out, given the resource it started from, the copy it worked on, how the work
ended, and whether the deadline had passed by then. -/
def conclude (r out : Managed Spec Packages) (ended : Except Fault Verdict) (expired : Bool) :
    Except Fault (Outcome (Managed Spec Packages)) :=
  match ended with
  | .ok v => .ok { resource := out, next := v.next, error := v.error }
  | .error f =>
    if f.isTimeLimit || (expired && f.isCancellation) then
      .error (.deadlinePassed r.key.text d.limitText)
    else if f.isStoreFailure then
      if r.phase.isIn .succeeded then .ok { resource := r, error := some f }
      else .ok { resource := out, next := some ⟨r.phase.name.plain, f.message⟩, error := some f }
    else .error f

/-- Invokes a reconciler on a copy of a resource, if the clock can count to the deadline. -/
def invoke (trace : Trace) (rec : Reconciler σ (Managed Spec Packages))
    (r : Managed Spec Packages) : Activity σ (Except Fault (Outcome (Managed Spec Packages))) :=
  match rec.checkPhase r with
  | .error f => .pure (.error f)
  | .ok () =>
    match d.limitFault? with
    | some f => .pure (.error f)
    | none =>
      Activity.bind
        (Activity.within d.seconds?
          (rec.handle (trace.enter (rec.label ++ " " ++ r.key.text)) r))
        fun ((out, ended), expired) => .pure (d.conclude r out ended expired)

/-- Hands a resource to the reconciler for its phase. -/
def dispatch (trace : Trace) (r : Managed Spec Packages) :
    Activity σ (Except Fault (Outcome (Managed Spec Packages))) :=
  match d.reconcilerFor r with
  | .error f => .pure (.error f)
  | .ok rec => d.invoke trace rec r

end Dispatcher

end

end CatalogOperator
