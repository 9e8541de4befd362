import CatalogOperator.Manifest.Basic

/-!
# `CatalogOperator.Source.Derived`: the catalog of an operator source

A valid operator source has a registry of the supported type. Its packages are served through a
catalog source config derived from it, which lives beside the source, carries its labels and two more
that name it as the owner.

* `OperatorSource.problem?`: what is wrong with a specification, if anything.
* `OperatorSource.derived`: the derived catalog source config for a list of packages.
-/

set_option autoImplicit false

namespace CatalogOperator

namespace OperatorSource

/-- The type of registry that is supported. -/
def supportedRegistry : String := "appregistry"

/-- What is wrong with the specification. -/
def problem? (r : OperatorSource) : Option String :=
  if r.spec.registryType != .text supportedRegistry then
    some ("Unsupported registry type " ++ r.spec.registryType.literal ++ ", expected " ++
      Text.quoted supportedRegistry)
  else if !r.spec.endpoint.isTrue then some "spec.endpoint must be set"
  else none

/-- The labels that name the owner of a derived catalog source config. -/
def ownerNameLabel : String := "opsrc-owner-name"
def ownerNamespaceLabel : String := "opsrc-owner-namespace"

/-- The derived catalog source config. -/
def derived (r : OperatorSource) (packages : Value) : CatalogSourceConfig where
  name := r.name
  ns := r.ns
  labels := Value.insert (Value.insert r.labels (.text ownerNameLabel) r.name)
    (.text ownerNamespaceLabel) r.ns
  spec := {
    targetNamespace := r.ns
    packages
    displayName := r.spec.displayName
    publisher := r.spec.publisher
    source := r.name }
  packages := []

end OperatorSource

end CatalogOperator
