import CatalogOperator.Cluster
import CatalogOperator.Phase
import CatalogOperator.Trace

/-!
# `CatalogOperator.Reconcile.Basic`: reconciling a resource in one phase

A reconciler takes a resource that is in its phase, works on a copy of it, and says what is to happen
next. A dependency that fails is part of the verdict, so that the phase can carry its message; any
other failure ends the reconcile.

* `Handler`: the work of a reconciler. The copy is part of the result however the work ends.
* `Verdict`: the next phase, and the failure to be retried.
* `Outcome`: the copy together with the verdict.
* `Outcome.settle`: the copy with the next phase in its status. The clock is read only if the phase
  changes.
-/

set_option autoImplicit false

namespace CatalogOperator

/-- What a reconciler says about a resource. -/
structure Verdict where
  next : Option Transition := none
  error : Option Fault := none
  deriving DecidableEq, Repr, Inhabited

/-- The work of a reconciler: a copy of the resource goes in and comes out again, with the verdict or
with the fault that ended the work. -/
abbrev Handler (σ R : Type) : Type :=
  Trace → R → Activity σ (R × Except Fault Verdict)

/-- The handler of one phase, with the name it shows in traces. -/
structure Reconciler (σ R : Type) where
  label : String
  phase : String
  handle : Handler σ R

/-- How a reconcile came out. -/
structure Outcome (R : Type) where
  resource : R
  next : Option Transition := none
  error : Option Fault := none
  deriving DecidableEq, Repr, Inhabited

/-- Whether no failure is to be retried. -/
def Outcome.success {R : Type} (o : Outcome R) : Bool :=
  o.error.isNone

/-- The resource with the next phase in its status, and the clock after that. -/
def Outcome.settle {Spec Packages : Type} (o : Outcome (Managed Spec Packages)) (clock : Clock) :
    Managed Spec Packages × Clock :=
  match o.next with
  | none => (o.resource, clock)
  | some t =>
    if o.resource.phase.agrees t then (o.resource, clock)
    else
      let (now, clock) := clock.read
      ({ o.resource with phase := o.resource.phase.advance t now }, clock)

namespace Verdict

/-- The verdict on a resource that has been configured. -/
def configured : Verdict :=
  { next := some (.into .succeeded) }

/-- The verdict on a failed attempt to configure: it is tried again, and the phase carries the
message. -/
def retry (f : Fault) : Verdict :=
  { next := some (.into .configuring f.message), error := some f }

/-- The verdict on a resource that has to be configured anew. -/
def reconfigure : Verdict :=
  { next := some (.into .configuring) }

end Verdict

/-- The message of a resource that is about to be configured. -/
def scheduledMessage : String := "Scheduled for configuring"

section

variable {σ R : Type}

/-- The reconciler of new resources. A valid one is scheduled for configuring, an invalid one fails
with what is wrong with it. -/
def Reconciler.initial (problem? : R → Except Fault (Option String)) : Reconciler σ R where
  label := "InitialReconciler"
  phase := Phase.initial.text
  handle _ r := .pure (r, (problem? r).map fun problem =>
    match problem with
    | some message => { next := some (.into .failed message) }
    | none => { next := some (.into .configuring scheduledMessage) })

/-- The reconciler of failed resources, which stay as they are. -/
def Reconciler.failed : Reconciler σ R where
  label := "FailedReconciler"
  phase := Phase.failed.text
  handle _ r := .pure (r, .ok {})

end

end CatalogOperator
