import CatalogOperator.Fault
import CatalogOperator.Value.Order

/-!
# `CatalogOperator.ObjectKey`: the identity of a cluster object

Objects are told apart by kind, namespace and name. Cluster-scoped objects have no namespace.

* `ObjectKey.text`: the written form `kind/namespace/name`, without a part for a namespace that does
  not count as present.
* `ObjectKey.sorted?`: keys in the order of kind, namespace and name, by code points.
-/

set_option autoImplicit false

namespace CatalogOperator

/-- The identity of a cluster object. -/
structure ObjectKey where
  kind : Value
  ns : Value
  name : Value
  deriving DecidableEq, Repr, Inhabited

namespace ObjectKey

/-- Namespace and name, or the name alone if there is no namespace. -/
def namespacedName (k : ObjectKey) : Value :=
  if k.ns.isTrue then .text (k.ns.plain ++ "/" ++ k.name.plain) else k.name

/-- The written form. -/
def text (k : ObjectKey) : String :=
  k.kind.plain ++ "/" ++ k.namespacedName.plain

/-- The fault of a key that cannot be looked up, for one of its parts is no scalar. -/
def fault? (k : ObjectKey) : Option Fault :=
  ([k.kind, k.ns, k.name].find? fun v => !v.isScalar).map Fault.notAKey

/-- The key itself, provided it can be looked up. -/
def usable? (k : ObjectKey) : Except Fault ObjectKey :=
  match k.fault? with
  | some f => .error f
  | none => .ok k

/-- The order of two keys, decided by the first part in which they differ. -/
def order? (a b : ObjectKey) : Option Ordering := do
  match ← Value.compare? a.kind b.kind with
  | .eq =>
    match ← Value.compare? a.ns b.ns with
    | .eq => Value.compare? a.name b.name
    | o => return o
  | o => return o

/-- The keys in order, if every two of them can be compared that have to be. -/
def sorted? (keys : List ObjectKey) : Option (List ObjectKey) :=
  if keys.all fun a => keys.all fun b => (order? a b).isSome then
    some (keys.mergeSort fun a b => order? a b != some .gt)
  else none

end ObjectKey

end CatalogOperator
