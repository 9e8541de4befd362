/-!
# `CatalogOperator.Trace`: the named steps under way

A trace is the list of the named steps that are under way, outermost first. A step sees its own trace
and cannot change that of its caller.

* `Trace.enter`: the trace inside a named step.
* `Trace.text`: the labels of all steps under way.
-/

set_option autoImplicit false

namespace CatalogOperator

/-- The named steps under way, outermost first. -/
abbrev Trace := List String

namespace Trace

/-- The trace inside a named step. -/
def enter (t : Trace) (label : String) : Trace :=
  t ++ [label]

/-- The labels of all steps under way. -/
def text (t : Trace) : String :=
  " > ".intercalate t

end Trace

end CatalogOperator
