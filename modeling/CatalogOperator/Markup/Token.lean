import CatalogOperator.Fault

/-!
# `CatalogOperator.Markup.Token`: the tokens of the markup language

Tokens carry the structure of a text: indentation has become starts and ends of block collections,
and the place of a key that only the colon behind it reveals is marked.

* `Token`: the tokens. A text that cannot be read further ends with the fault met there.
-/

set_option autoImplicit false

namespace CatalogOperator.Markup

/-- A token. -/
inductive Token where
  /-- The version of the language a document is written in. -/
  | version (major minor : Nat)
  /-- A shorthand for the start of tags. -/
  | shorthand (handle start : String)
  /-- A directive that means nothing. -/
  | reserved
  | documentStart
  | documentEnd
  | blockSequence
  | blockMapping
  | blockEnd
  | flowSequence
  | flowSequenceEnd
  | flowMapping
  | flowMappingEnd
  /-- The dash in front of an item. -/
  | item
  /-- The comma between items or entries. -/
  | separator
  | key
  | value
  | alias (name : String)
  | anchor (name : String)
  /-- A tag with its shorthand, if it has one. -/
  | tag (handle : Option String) (suffix : String)
  | scalar (text : String) (plain : Bool)
  | fault (f : Fault)
  deriving DecidableEq, Repr, Inhabited

end CatalogOperator.Markup
