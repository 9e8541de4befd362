import CatalogOperator.Catalog.PackageList
import CatalogOperator.Manifest.Basic

/-!
# `CatalogOperator.Catalog.Validity`: valid catalog source configs

A catalog source config names the namespace that receives its catalog, and at least one package.

* `CatalogSourceConfig.problem?`: what is wrong with a specification, if anything.
* `CatalogSourceConfig.children`: the objects a configured catalog source config must have.
-/

set_option autoImplicit false

namespace CatalogOperator

namespace PackageList

/-- The ids listed in a value, which must be a text. Bytes can be split as well, but not at a text. -/
def idsOf? : Value → Except Fault (List (List Char))
  | .text s => .ok (ids s.toList)
  | .bytes _ => .error (.wrongType "a bytes-like object is required, not 'str'")
  | v => .error (Fault.lacking v "split")

end PackageList

namespace CatalogSourceConfig

/-- What is wrong with the specification. -/
def problem? (r : CatalogSourceConfig) : Except Fault (Option String) :=
  if !r.spec.targetNamespace.isTrue then .ok (some "spec.targetNamespace must be set")
  else
    match PackageList.idsOf? r.spec.packages with
    | .error e => .error e
    | .ok [] => .ok (some "spec.packages must list at least one package")
    | .ok _ => .ok none

/-- The children: the catalog source in the target namespace, and the deployment and the service of
the registry beside the resource. -/
def children (r : CatalogSourceConfig) : List ObjectKey :=
  [⟨.text Kind.catalogSource, r.spec.targetNamespace, r.name⟩,
    ⟨.text Kind.deployment, r.ns, r.name⟩, ⟨.text Kind.service, r.ns, r.name⟩]

/-- The summaries of the packages listed in the specification. -/
def summaries? (r : CatalogSourceConfig) : Except Fault (List PackageSummary) :=
  (PackageList.idsOf? r.spec.packages).map fun ids =>
    ids.map fun id => ⟨.text (String.ofList id), r.spec.source⟩

end CatalogSourceConfig

end CatalogOperator
