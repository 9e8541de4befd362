import CatalogOperator.Fault
import CatalogOperator.Table
import CatalogOperator.Value.Same

/-!
# `CatalogOperator.Proxy.Environment`: the variables seen outside the operator

A mapping of variables receives the proxy values for consumers outside the operator. It may reject a
write, which then changes nothing but is remembered as an attempt.

* `Environment.write`: one write.
* `Environment.rejecting`: the rejection of chosen writes.
* `Environment.ofProcess`: the environment of a process, which takes texts without null characters
  only.
-/

set_option autoImplicit false

namespace CatalogOperator

/-- A mapping of variables. `reject` tells what the attempt of the given number, counted from one, to
write a value under a name fails with. -/
structure Environment where
  bindings : Table String Value := Table.empty
  attempts : List (String × Value) := []
  reject : Nat → String → Value → Option Fault := fun _ _ _ => none
  deriving Inhabited

namespace Environment

/-- Writes a value under a name. -/
def write (e : Environment) (name : String) (value : Value) : Environment × Option Fault :=
  let number := e.attempts.length + 1
  let e' := { e with attempts := e.attempts ++ [(name, value)] }
  match e.reject number name value with
  | some f => (e', some f)
  | none => ({ e' with bindings := e.bindings.insert name value }, none)

/-- Writes values one after the other until one is rejected. -/
def writeAll (e : Environment) : List (String × Value) → Environment × Option Fault
  | [] => (e, none)
  | (name, value) :: rest =>
    match e.write name value with
    | (e, some f) => (e, some f)
    | (e, none) => writeAll e rest

/-- Rejects the writes of the given values under the given names, and the attempts of the given
numbers. -/
def rejecting (writes : List (Value × Value)) (numbers : List Value) (number : Nat) (name : String)
    (value : Value) : Option Fault :=
  if writes.any (fun w => w.1.same (.text name) && w.2.same value) ||
      numbers.contains (.int number) then
    some (.systemFailure ("write " ++ toString number ++ " of " ++ name ++ " failed"))
  else none

/-- What a process environment rejects: values that are no texts, and texts with a null character. -/
def processRejects (_ : Nat) (_ : String) (value : Value) : Option Fault :=
  match value with
  | .text s => if s.contains '\x00' then some (.invalidArgument "embedded null byte") else none
  | v => some (.wrongType ("str expected, not " ++ v.typeName))

/-- The environment of a process without any of the variables. -/
def ofProcess : Environment :=
  { reject := processRejects }

end Environment

end CatalogOperator
