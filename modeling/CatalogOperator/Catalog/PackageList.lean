import CatalogOperator.Text.Blank

/-!
# `CatalogOperator.Catalog.PackageList`: lists of package ids

Packages are listed in one text, separated by commas. An entry may name its source in front of a
slash, and white space around an id does not matter.

* `PackageList.removeSources`: the list without the names of sources.
* `PackageList.ids`: the ids of a list, blank entries left out.
-/

set_option autoImplicit false

namespace CatalogOperator

namespace PackageList

/-- The entries of a list joined by commas. -/
def join (entries : List (List Char)) : List Char :=
  [','].intercalate entries

/-- An entry without its source: what stands between the first slash and the second. -/
def removeSource (entry : List Char) : List Char :=
  match entry.splitOn '/' with
  | _ :: id :: _ => id
  | _ => entry

/-- A list without the sources of its entries. -/
def removeSources (list : List Char) : List Char :=
  join ((list.splitOn ',').map removeSource)

/-- The ids of a list. -/
def ids (list : List Char) : List (List Char) :=
  (((removeSources list).splitOn ',').map Text.trim).filter fun id => !id.isEmpty

end PackageList

end CatalogOperator
