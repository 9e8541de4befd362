import CatalogOperator.Manifest.Conversion
import CatalogOperator.Markup.Document
import CatalogOperator.WorkQueue

/-!
# `CatalogOperator.Config`: settings of the operator

Settings are read from a mapping like the fields of a manifest: unknown ones are ignored, missing ones
take their default, and values are converted.

* `ControllerConfig`: the settings of the controller of one kind.
* `OperatorConfig`: the settings of the operator. `OperatorConfig.ofFile?` reads them from a file.
-/

set_option autoImplicit false

namespace CatalogOperator

/-- The settings of a controller: the number of workers, the seconds between two resyncs and the
deadline of a reconcile, if there are any, and the bounds of the backoff. -/
structure ControllerConfig where
  workers : Int := 2
  resyncInterval : Option Double := some (.ofRat 3600)
  deadline : Option Double := none
  baseDelay : Double := .ofRat (5 / 1000)
  maxDelay : Double := .ofRat 1000
  deriving DecidableEq, Repr, Inhabited

/-- The settings of the operator: the namespace it watches, whether the cluster serves proxy values,
and whether these are written through to the process environment. -/
structure OperatorConfig where
  ns : String := "openshift-marketplace"
  proxyAvailable : Bool := true
  projectProxy : Bool := false
  sources : ControllerConfig := {}
  catalogs : ControllerConfig := {}
  deriving DecidableEq, Repr, Inhabited

open Conversion

/-- The settings of a controller. -/
def ControllerConfig.ofFields? (v : Value) : Result ControllerConfig := do
  let es ← entries v
  let workers ← field es "workers" int (some 2)
  let resyncInterval ← field es "resync_interval" optionalDouble (some (some (.ofRat 3600)))
  let deadline ← field es "reconcile_timeout" optionalDouble (some none)
  let baseDelay ← field es "base_delay" double (some (.ofRat (5 / 1000)))
  let maxDelay ← field es "max_delay" double (some (.ofRat 1000))
  return { workers, resyncInterval, deadline, baseDelay, maxDelay }

/-- The settings of the operator. -/
def OperatorConfig.ofFields? (v : Value) : Result OperatorConfig := do
  let es ← entries v
  let ns ← field es "namespace" (fun v => some v.plain) (some "openshift-marketplace")
  let proxyAvailable ← field es "proxy_api_available" bool (some true)
  let projectProxy ← field es "project_proxy_env" bool (some false)
  let sources ← field es "operator_source" (inner ControllerConfig.ofFields?) (some {})
  let catalogs ← field es "catalog_source_config" (inner ControllerConfig.ofFields?) (some {})
  return { ns, proxyAvailable, projectProxy, sources, catalogs }

/-- The settings that a text holds. -/
def OperatorConfig.ofText? (text : String) : Result OperatorConfig := do
  ofFields? (← Markup.readOne .records text)

/-- The settings that a file holds, which must not be empty. -/
def OperatorConfig.ofFile? (path text : String) : Result OperatorConfig :=
  if text.isEmpty then .error (.malformedDocument ("Empty configuration file " ++ path))
  else ofText? text

end CatalogOperator
