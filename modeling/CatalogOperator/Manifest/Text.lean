import CatalogOperator.Manifest.Conversion
import CatalogOperator.Manifest.Document
import CatalogOperator.Markup.Document
import CatalogOperator.Markup.Layout

/-!
# `CatalogOperator.Manifest.Text`: manifests in the markup language

* `Manifest.readAll`: the objects of a file of documents. Empty documents are skipped.
* `Manifest.ofText?`, `Manifest.text`: a single manifest by its fields.
-/

set_option autoImplicit false

namespace CatalogOperator

namespace Manifest

/-- A fault of reading a file, where a text that is not well formed is put down to the file. -/
def inFile (path : String) : Fault → Fault
  | .malformedText => .malformedDocument ("Unable to parse " ++ path)
  | f => f

/-- The objects of the documents of a file. All documents are read before the first object is. -/
def readAll (path text : String) : Except Fault (List Manifest) := do
  let docs ← (Markup.readAll .manifests text).mapError (inFile path)
  (docs.filter Value.isTrue).mapM ofDocument?

/-- The manifest of a class whose fields a text holds, if there is such a class. -/
def ofText? (typeName text : String) : Option (Except Fault Manifest) :=
  match Markup.readOne .records text with
  | .ok v => ofFields? typeName v
  | .error f => some (.error f)

/-- The text that holds the fields of a manifest. -/
def text (m : Manifest) : String :=
  Markup.write m.fields

end Manifest

end CatalogOperator
