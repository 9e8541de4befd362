import CatalogOperator.Value.Literal

/-!
# `CatalogOperator.Value.Same`: values that count as equal

Two values count as equal when they differ only in ways that do not matter: a whole number may be
written as a double or, for zero and one, as a truth value; the entries of a mapping may stand in
any order; and a point in time may be told on another clock. Every value has a canonical form, and
two values count as equal exactly when their canonical forms are the same, so this is an
equivalence by its definition.

* `Value.canonical`: the canonical form.
* `Value.same`: whether two values count as equal.
* `Value.differs`: whether a comparison tells two values apart.
* `Value.insert`: an entry put into a mapping, in place of one whose key counts as equal.
-/

set_option autoImplicit false

namespace CatalogOperator

namespace Value

/-- The canonical form of a double: a whole number where it stands for one. -/
def canonicalDouble (x : Double) : Value :=
  match x.toRat? with
  | some q => if q.den = 1 then int q.num else float x
  | none => float x

/-- The canonical form of a point in time: told in universal time if it knows its offset. -/
def canonicalMoment (t : Moment) : Value :=
  match t.instant? with
  | some micros => pair (text "instant") (int micros)
  | none => moment t

/-- Entries in the order of the literals of their keys. -/
def sortEntries (entries : List (Value × Value)) : List (Value × Value) :=
  entries.mergeSort fun a b => decide (literal a.1 ≤ literal b.1)

/-- Items in the order of their literals. -/
def sortItems (items : List Value) : List Value :=
  items.mergeSort fun a b => decide (literal a ≤ literal b)

mutual

/-- The canonical form of a value. -/
def canonical : Value → Value
  | bool b => int (if b then 1 else 0)
  | float x => canonicalDouble x
  | moment t => canonicalMoment t
  | pair a b => pair (canonical a) (canonical b)
  | list items => list (canonicalItems items)
  | set items => set (sortItems (canonicalItems items))
  | map entries => map (sortEntries (canonicalEntries entries))
  | v => v

/-- The canonical forms of a list of values. -/
def canonicalItems : List Value → List Value
  | [] => []
  | v :: vs => canonical v :: canonicalItems vs

/-- The entries of a mapping with keys and values in canonical form. -/
def canonicalEntries : List (Value × Value) → List (Value × Value)
  | [] => []
  | (k, v) :: rest => (canonical k, canonical v) :: canonicalEntries rest

end

/-- Whether two values count as equal. -/
def same (a b : Value) : Bool :=
  decide (canonical a = canonical b)

/-- Every value counts as equal to itself. -/
@[simp] theorem same_refl (a : Value) : same a a = true := by
  simp [same]

/-- Two values count as equal in either order. -/
theorem same_symm {a b : Value} (h : same a b = true) : same b a = true := by
  simp only [same, decide_eq_true_eq] at *
  exact h.symm

/-- Values that count as equal to the same value count as equal. -/
theorem same_trans {a b c : Value} (h : same a b = true) (h' : same b c = true) :
    same a c = true := by
  simp only [same, decide_eq_true_eq] at *
  exact h.trans h'

/-- Values that count as equal count as equal to the same values. -/
theorem same_left_congr {a b : Value} (h : same a b = true) (c : Value) : same a c = same b c := by
  rw [Bool.eq_iff_iff]
  exact ⟨same_trans (same_symm h), same_trans h⟩

/-- Whether a comparison tells two values apart. The double that is no number is told apart from
everything, itself included, unless it is compared as a part of a larger value. -/
def differs (a b : Value) : Bool :=
  a == .float .nan || b == .float .nan || !same a b

/-- Values are not told apart if they count as equal and neither is the double that is no number. -/
theorem differs_eq_false {a b : Value} :
    differs a b = false ↔ a ≠ .float .nan ∧ b ≠ .float .nan ∧ same a b = true := by
  simp [differs, and_assoc]

/-- Values that are told apart from none of the same values are not told apart. -/
theorem not_differs_of_not_differs {a b c : Value} (ha : differs c a = false)
    (hb : differs c b = false) : differs a b = false := by
  rw [differs_eq_false] at *
  exact ⟨ha.2.1, hb.2.1, same_trans (same_symm ha.2.2) hb.2.2⟩

/-- A mapping with an entry put in. The key that was there first stays. -/
def insert (entries : List (Value × Value)) (key value : Value) : List (Value × Value) :=
  match entries with
  | [] => [(key, value)]
  | (k, v) :: rest => if same k key then (k, value) :: rest else (k, v) :: insert rest key value

/-- The mapping with the given entries, later ones taking the place of earlier ones. -/
def mapOf (entries : List (Value × Value)) : List (Value × Value) :=
  entries.foldl (fun m e => insert m e.1 e.2) []

end Value

end CatalogOperator
