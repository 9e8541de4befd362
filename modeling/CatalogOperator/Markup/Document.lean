import CatalogOperator.Markup.Node
import CatalogOperator.Markup.Token.Lexer

/-!
# `CatalogOperator.Markup.Document`: reading documents

* `Markup.readAll`: the values of all documents of a text, one after the other.
* `Markup.readOne`: the value of the only document of a text.
-/

set_option autoImplicit false

namespace CatalogOperator.Markup

/-- The values of the documents left to be read, as many as the given number. -/
def readFrom (first : Bool) (r : Reading) : Nat → Except Fault (List Value)
  | 0 => .ok []
  | count + 1 => do
    match ← (Reading.document? first).run r with
    | (none, _) => return []
    | (some n, r) =>
      let v ← n.value?
      return v :: (← readFrom false r count)

/-- The values of all documents of a text. -/
def readAll (d : Dialect) (s : String) : Except Fault (List Value) :=
  let tokens := Token.ofText d s
  readFrom true { tokens } (tokens.length + 1)

/-- The value of the only document of a text, which is absent if there is no document. -/
def readOne (d : Dialect) (s : String) : Except Fault Value := do
  match ← (Reading.document? true).run { tokens := Token.ofText d s } with
  | (none, _) => return .null
  | (some n, r) =>
    match ← (Reading.document? false).run r with
    | (none, _) => n.value?
    | (some _, _) => .error .malformedText

end CatalogOperator.Markup
