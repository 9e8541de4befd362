import CatalogOperator.Manifest.Basic
import CatalogOperator.Table

/-!
# `CatalogOperator.Source.PackageIndex`: the packages known for each operator source

The package ids of a source outlive its status, so a source whose status is reset still has a catalog
with all its packages.

* `PackageIndex.record`: remembers the ids in the status of a source; a status without ids leaves
  what is known untouched.
* `PackageIndex.packagesFor`: the ids of a source, those in its status first.
-/

set_option autoImplicit false

namespace CatalogOperator

/-- The package ids known for each source. -/
abbrev PackageIndex := Table ObjectKey Value

namespace PackageIndex

/-- Remembers the package ids in the status of a source. -/
def record (index : PackageIndex) (r : OperatorSource) : PackageIndex :=
  if r.packages.isTrue then Table.insert index r.key r.packages else index

/-- The package ids of a source. -/
def packagesFor (index : PackageIndex) (r : OperatorSource) : Value :=
  if r.packages.isTrue then r.packages else (Table.find? index r.key).getD (.text "")

end PackageIndex

end CatalogOperator
