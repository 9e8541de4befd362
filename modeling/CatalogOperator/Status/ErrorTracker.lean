import CatalogOperator.Manifest.Basic
import CatalogOperator.Table

/-!
# `CatalogOperator.Status.ErrorTracker`: the last error of each source

An entry is added when a source fails, removed when it succeeds or is deleted, and dropped when the
operator hub no longer enables the source. The degraded condition of the operator sums the entries
up: its reason is that of the first failing source in name order, and its message lists all of them.

* `ErrorTracker.sync`: keeps the entries of the sources a hub enables.
* `Condition.degraded?`: the condition. There is none for names that have no order.
-/

set_option autoImplicit false

namespace CatalogOperator

/-- The last error of each source that fails. -/
abbrev ErrorTracker := Table Value Fault

namespace ErrorTracker

/-- Keeps the entries of the sources the hub enables. -/
def sync (t : ErrorTracker) (hub : OperatorHub) : ErrorTracker :=
  Table.filter t fun name _ => hub.enables name

end ErrorTracker

/-- A condition of the operator. -/
structure Condition where
  type : String
  status : Bool
  reason : String
  message : String := ""
  deriving DecidableEq, Repr, Inhabited

namespace Condition

/-- The written form of a truth value. -/
def statusText (c : Condition) : String :=
  if c.status then "True" else "False"

/-- The written form. -/
def text (c : Condition) : String :=
  let shown := c.type ++ "=" ++ c.statusText ++ " (" ++ c.reason ++ ")"
  if c.message.isEmpty then shown else shown ++ ": " ++ c.message

/-- The condition for failing sources in name order. -/
def ofFailures : List (Value × Fault) → Condition
  | [] => { type := "Degraded", status := false, reason := "AsExpected" }
  | (name, e) :: rest =>
    { type := "Degraded"
      status := true
      reason := e.reason.text
      message := "; ".intercalate (((name, e) :: rest).map fun f => f.1.plain ++ ": " ++ f.2.message) }

/-- The degraded condition of the operator. -/
def degraded? (t : ErrorTracker) : Except Fault Condition :=
  if t.keys.all fun a => t.keys.all fun b => (Value.compare? a b).isSome then
    .ok (ofFailures (t.entries.mergeSort fun a b => Value.compare? a.1 b.1 != some .gt))
  else .error (.wrongType "names of different types have no order")

end Condition

end CatalogOperator
