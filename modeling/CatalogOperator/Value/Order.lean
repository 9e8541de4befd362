import CatalogOperator.Value.Basic

/-!
# `CatalogOperator.Value.Order`: values in order

Texts are ordered by code points and numbers by their exact value, truth values counting as zero and
one. Two absent values are equal. Other values have no order.

* `Value.compare?`: the order of two values.
-/

set_option autoImplicit false

namespace CatalogOperator

namespace Value

/-- The number a value stands for. -/
def number? : Value → Option Number
  | bool b => some (.int (if b then 1 else 0))
  | int n => some (.int n)
  | float x => some (.float x)
  | _ => none

/-- The order of two values. -/
def compare? (a b : Value) : Option Ordering :=
  if a == b then some .eq
  else
    match a, b with
    | text s, text t => some (if s < t then .lt else .gt)
    | a, b =>
      match number? a, number? b with
      | some m, some n => some (if m.lt n then .lt else if n.lt m then .gt else .eq)
      | _, _ => none

end Value

end CatalogOperator
