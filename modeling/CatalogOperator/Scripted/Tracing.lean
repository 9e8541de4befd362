import CatalogOperator.Trace

/-!
# `CatalogOperator.Scripted.Tracing`: walks through named steps

A named step may hold further steps, and it may fail, which ends it. The step around it notes the
failure, with its own trace in force again, and goes on.

* `Nest`: a step with the steps inside it.
* `Nest.walk`: the traces met on the way.
-/

set_option autoImplicit false

namespace CatalogOperator

/-- A named step with the steps inside it, or a failure in their place. -/
inductive Nest where
  | failure
  | step (label : String) (inside : List Nest)
  deriving Repr, Inhabited

namespace Nest

mutual

/-- The traces met on a walk through a step, and whether the step failed. -/
def walk (t : Trace) : Nest → List String × Bool
  | failure => ([], true)
  | step label inside =>
    let (lines, failed) := walkInside (t.enter label) inside
    ((t.enter label).text :: lines, failed)

/-- The traces met on a walk through the steps inside another one, up to a failure that stands
there. -/
def walkInside (t : Trace) : List Nest → List String × Bool
  | [] => ([], false)
  | failure :: _ => ([], true)
  | n :: rest =>
    let (lines, failed) := walk t n
    let caught := if failed then ["caught boom in " ++ t.text] else []
    let (more, failed) := walkInside t rest
    (lines ++ caught ++ more, failed)

end

/-- The traces met on walks through one step after the other, with the trace around them before the
first and after each. -/
def walkAll (t : Trace) (steps : List Nest) : List String :=
  t.text :: steps.flatMap fun n => (walk t n).1 ++ [t.text]

end Nest

end CatalogOperator
