import CatalogOperator.Reconcile.Dispatcher

/-!
# `CatalogOperator.Scripted.Reconciler`: a reconciler that follows a script

This reconciler does the same thing for every resource: it may set a label, set the phase, leave its
trace in a label, take some time and fail, before it comes to its verdict.

* `Turn`: what it does.
* `Reconciler.scripted`: the reconciler.
-/

set_option autoImplicit false

namespace CatalogOperator

/-- How a scripted reconciler comes to its verdict. -/
inductive Ending where
  | verdict (v : Verdict)
  | reset
  deriving DecidableEq, Repr, Inhabited

/-- What a scripted reconciler does with a resource, in the order of the fields. -/
structure Turn where
  label : Option (Value × Value) := none
  phase : Option (Value × Value) := none
  traced : Bool := false
  seconds : Option Rat := none
  fails : Option Fault := none
  ending : Ending := .verdict {}
  deriving Inhabited

namespace Turn

variable {σ Spec Packages : Type}

/-- The resource with the changes that are made before anything can fail. -/
def prepare (t : Turn) (trace : Trace) (r : Managed Spec Packages) : Managed Spec Packages :=
  let r := t.label.elim r fun l => r.setLabel l.1 l.2
  let r := t.phase.elim r fun p =>
    { r with phase := { r.phase with name := p.1, message := p.2 } }
  if t.traced then r.setLabel (.text "trace") (.text trace.text) else r

/-- The work of a scripted reconciler. -/
def handle [ManagedKind Spec Packages] (t : Turn) : Handler σ (Managed Spec Packages) :=
  fun trace r => do
    let r := t.prepare trace r
    let wake ← t.seconds.elim (Activity.pure .elapsed) Activity.sleep
    if wake = .cancelled then return (r, .error (.cancelled ""))
    else
      match t.fails, t.ending with
      | some f, _ => return (r, .error f)
      | none, .verdict v => return (r, .ok v)
      | none, .reset => return (r.resetStatus, .ok .reconfigure)

end Turn

/-- The reconciler of a phase that follows a script. -/
def Reconciler.scripted {σ Spec Packages : Type} [ManagedKind Spec Packages] (phase : String)
    (t : Turn) : Reconciler σ (Managed Spec Packages) where
  label := "Scripted"
  phase
  handle := t.handle

/-- The result of a run in which every sleep is slept out. -/
def Run.toEnd {σ α : Type} : Run σ α → σ × α
  | .finished s a => (s, a)
  | .asleep s _ resume => (resume .elapsed s).toEnd

end CatalogOperator
