/-!
# `CatalogOperator.Markup.Dialect`: readings of the markup language

Readers of the language agree on all texts but odd ones. A dialect settles those.

* `Dialect.manifests`: how streams of documents are read.
* `Dialect.records`: how the text of a single object or of the settings is read.
-/

set_option autoImplicit false

namespace CatalogOperator.Markup

/-- The odd cases in which readers of the language differ. -/
structure Dialect where
  /-- Tabs may stand between words and tokens. -/
  tabs : Bool
  /-- Inside a flow collection a question mark ends a plain scalar. -/
  questionEnds : Bool
  /-- Inside a flow collection a colon right in front of an indicator ends a plain scalar. Otherwise
  it is refused there. -/
  colonEnds : Bool
  /-- A comma may follow a tag at once, and brackets and commas are no part of one. -/
  commaAfterTag : Bool
  /-- Directives of unknown names are skipped. Otherwise they are refused. -/
  skipsDirectives : Bool
  /-- Any minor version may be declared. Otherwise only the first and the second. -/
  anyMinor : Bool
  /-- Escapes may give a character as its two UTF-16 units. -/
  unitPairs : Bool
  deriving DecidableEq, Repr, Inhabited

namespace Dialect

/-- How streams of documents are read. -/
def manifests : Dialect :=
  { tabs := false, questionEnds := true, colonEnds := true, commaAfterTag := false,
    skipsDirectives := true, anyMinor := true, unitPairs := true }

/-- How the text of a single object or of the settings is read. -/
def records : Dialect :=
  { tabs := true, questionEnds := false, colonEnds := false, commaAfterTag := true,
    skipsDirectives := false, anyMinor := false, unitPairs := false }

end Dialect

end CatalogOperator.Markup
