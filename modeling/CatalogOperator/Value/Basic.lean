import CatalogOperator.Number.Basic
import CatalogOperator.Time.Moment

/-!
# `CatalogOperator.Value.Basic`: the values of a document

A document is a tree of values. Nothing is known about the type of any part of it before it has been
looked at, so the fields of an object read from a document hold values too.

* `Value`: the values, with decidable equality.
* `Value.isTrue`: whether a value counts as present. Absent values, zeros and everything empty do not.
* `Value.get?`: the entry of a mapping under a text key.
-/

set_option autoImplicit false

namespace CatalogOperator

/-- A value of a document. The entries of a mapping keep their order, and their keys are distinct. -/
inductive Value where
  | null
  | bool (b : Bool)
  | int (n : Int)
  | float (x : Double)
  | text (s : String)
  | date (d : Date)
  | moment (t : Moment)
  | bytes (bs : List UInt8)
  | pair (first second : Value)
  | list (items : List Value)
  | set (items : List Value)
  | map (entries : List (Value × Value))
  deriving Repr, Inhabited

namespace Value

mutual

/-- Whether two values are the same. -/
def beq : Value → Value → Bool
  | null, null => true
  | bool a, bool b => a == b
  | int a, int b => a == b
  | float a, float b => a == b
  | text a, text b => a == b
  | date a, date b => a == b
  | moment a, moment b => a == b
  | bytes a, bytes b => a == b
  | pair a b, pair c d => beq a c && beq b d
  | list a, list b => beqList a b
  | set a, set b => beqList a b
  | map a, map b => beqEntries a b
  | _, _ => false

/-- Whether two lists of values are the same. -/
def beqList : List Value → List Value → Bool
  | [], [] => true
  | a :: as, b :: bs => beq a b && beqList as bs
  | _, _ => false

/-- Whether two lists of entries are the same. -/
def beqEntries : List (Value × Value) → List (Value × Value) → Bool
  | [], [] => true
  | (k, a) :: as, (l, b) :: bs => beq k l && beq a b && beqEntries as bs
  | _, _ => false

end

mutual

/-- Every value is the same as itself. -/
theorem beq_refl : (a : Value) → beq a a = true
  | null => rfl
  | bool a => by simp [beq]
  | int a => by simp [beq]
  | float a => by simp [beq]
  | text a => by simp [beq]
  | date a => by simp [beq]
  | moment a => by simp [beq]
  | bytes a => by simp [beq]
  | pair a b => by simp [beq, beq_refl a, beq_refl b]
  | list a => by simp [beq, beqList_refl a]
  | set a => by simp [beq, beqList_refl a]
  | map a => by simp [beq, beqEntries_refl a]

/-- So is every list of values. -/
theorem beqList_refl : (as : List Value) → beqList as as = true
  | [] => rfl
  | a :: as => by simp [beqList, beq_refl a, beqList_refl as]

/-- So is every list of entries. -/
theorem beqEntries_refl : (as : List (Value × Value)) → beqEntries as as = true
  | [] => rfl
  | (k, a) :: as => by simp [beqEntries, beq_refl k, beq_refl a, beqEntries_refl as]

end

mutual

/-- Values that are found to be the same are equal. -/
theorem eq_of_beq : (a b : Value) → beq a b = true → a = b
  | null, b, h => by cases b <;> simp_all [beq]
  | bool _, b, h => by cases b <;> simp_all [beq]
  | int _, b, h => by cases b <;> simp_all [beq]
  | float _, b, h => by cases b <;> simp_all [beq]
  | text _, b, h => by cases b <;> simp_all [beq]
  | date _, b, h => by cases b <;> simp_all [beq]
  | moment _, b, h => by cases b <;> simp_all [beq]
  | bytes _, b, h => by cases b <;> simp_all [beq]
  | pair x y, b, h => by
    cases b <;> simp only [beq, Bool.and_eq_true, Bool.false_eq_true] at h
    rw [eq_of_beq x _ h.1, eq_of_beq y _ h.2]
  | list xs, b, h => by
    cases b <;> simp only [beq, Bool.false_eq_true] at h
    rw [eq_of_beqList xs _ h]
  | set xs, b, h => by
    cases b <;> simp only [beq, Bool.false_eq_true] at h
    rw [eq_of_beqList xs _ h]
  | map xs, b, h => by
    cases b <;> simp only [beq, Bool.false_eq_true] at h
    rw [eq_of_beqEntries xs _ h]

/-- So are lists of values. -/
theorem eq_of_beqList : (as bs : List Value) → beqList as bs = true → as = bs
  | [], bs, h => by cases bs <;> simp_all [beqList]
  | x :: xs, bs, h => by
    cases bs <;> simp only [beqList, Bool.and_eq_true, Bool.false_eq_true] at h
    rw [eq_of_beq x _ h.1, eq_of_beqList xs _ h.2]

/-- So are lists of entries. -/
theorem eq_of_beqEntries :
    (as bs : List (Value × Value)) → beqEntries as bs = true → as = bs
  | [], bs, h => by cases bs <;> simp_all [beqEntries]
  | (k, x) :: xs, bs, h => by
    cases bs <;> simp only [beqEntries, Bool.and_eq_true, Bool.false_eq_true] at h
    rw [eq_of_beq k _ h.1.1, eq_of_beq x _ h.1.2, eq_of_beqEntries xs _ h.2]

end

/-- Values are found to be the same exactly if they are equal. -/
theorem beq_iff_eq {a b : Value} : beq a b = true ↔ a = b :=
  ⟨eq_of_beq a b, fun h => h ▸ beq_refl a⟩

instance : DecidableEq Value := fun _ _ => decidable_of_iff _ beq_iff_eq

/-- Whether a value counts as present: not absent, not false, not zero and not empty. -/
def isTrue : Value → Bool
  | null => false
  | bool b => b
  | int n => n != 0
  | float (.zero _) => false
  | float _ => true
  | text s => !s.isEmpty
  | date _ => true
  | moment _ => true
  | bytes bs => !bs.isEmpty
  | pair _ _ => true
  | list items => !items.isEmpty
  | set items => !items.isEmpty
  | map entries => !entries.isEmpty

/-- Whether a value can be a key: lists, sets and mappings cannot, nor a pair that holds one. -/
def isScalar : Value → Bool
  | list _ => false
  | set _ => false
  | map _ => false
  | pair a b => isScalar a && isScalar b
  | _ => true

/-- The part of a value for which it cannot be a key: the value itself unless it is a pair. -/
def unusableKey : Value → Value
  | pair a b => if isScalar a then unusableKey b else unusableKey a
  | v => v

/-- The name of the type of a value, as messages give it. -/
def typeName : Value → String
  | null => "NoneType"
  | bool _ => "bool"
  | int _ => "int"
  | float _ => "float"
  | text _ => "str"
  | date _ => "datetime.date"
  | moment _ => "datetime.datetime"
  | bytes _ => "bytes"
  | pair _ _ => "tuple"
  | list _ => "list"
  | set _ => "set"
  | map _ => "dict"

/-- The entry of a mapping under a text key. -/
def get? (entries : List (Value × Value)) (key : String) : Option Value :=
  (entries.find? fun e => e.1 == .text key).map (·.2)

/-- A value, or another one in place of a value that does not count as present. -/
def orElse (v other : Value) : Value :=
  if v.isTrue then v else other

end Value

end CatalogOperator
