import CatalogOperator.Manifest.Fields
import CatalogOperator.Number.Basic
import CatalogOperator.Time.Iso

/-!
# `CatalogOperator.Manifest.Conversion`: manifests from mappings of fields

Reading the fields of a manifest converts each value to the type of its field: texts take the plain
text of any value, truth values its presence, points in time are read from their ISO form. Unknown
fields are ignored, a missing field takes its default, and fields are taken in the order of their
declaration, so the first one that cannot be read decides the fault. A fault inside a field is put
down to that field.

* `Conversion.field`: one field.
* `Manifest.ofFields?`: the manifest of a class.
-/

set_option autoImplicit false

namespace CatalogOperator

namespace Conversion

/-- The result of a conversion. -/
abbrev Result (α : Type) := Except Fault α

/-- The entries of a mapping; nothing else has fields. -/
def entries : Value → Result (List (Value × Value))
  | .map es => .ok es
  | _ => .error .notMapping

/-- A field that is converted if it is there and takes its default if it is not. -/
def field {α : Type} (es : List (Value × Value)) (name : String) (convert : Value → Option α)
    (default? : Option α := none) : Result α :=
  match Value.get? es name, default? with
  | some v, _ =>
    match convert v with
    | some a => .ok a
    | none => .error (.invalidField name)
  | none, some a => .ok a
  | none, none => .error (.missingField name)

/-- A conversion whose faults are put down to the field it stands in. -/
def inner {α : Type} (convert : Value → Result α) (v : Value) : Option α :=
  (convert v).toOption

/-- Any value as a text. -/
def text (v : Value) : Option Value :=
  some (.text v.plain)

/-- Any value as a text, an absent one kept. -/
def optionalText : Value → Option Value
  | .null => some .null
  | v => text v

/-- The items of a value that has items: those of a list, the characters of a text, the keys of a
mapping. -/
def items : Value → Option (List Value)
  | .list vs => some vs
  | .set vs => some vs
  | .pair a b => some [a, b]
  | .map es => some (es.map (·.1))
  | .text s => some (s.toList.map fun c => .text (String.ofList [c]))
  | .bytes bs => some (bs.map fun b => .int b.toNat)
  | _ => none

/-- A list with each item converted. -/
def list {α : Type} (convert : Value → Result α) (v : Value) : Option (List α) :=
  (items v).bind fun vs => (vs.mapM convert).toOption

/-- Labels: a mapping whose keys and values become texts. -/
def labelMap : Value → Option Labels
  | .map es => some (Value.mapOf (es.map fun e => (.text e.1.plain, .text e.2.plain)))
  | _ => none

/-- An optional point in time. Only texts are read. -/
def moment : Value → Option (Option Moment)
  | .null => some none
  | .text s => (Moment.ofIso? s).map some
  | _ => none

/-- A truth value: whether a value counts as present. -/
def bool (v : Value) : Option Bool :=
  some v.isTrue

/-- A whole number: doubles lose their fraction, texts are read. -/
def int : Value → Option Int
  | .int n => some n
  | .bool b => some (if b then 1 else 0)
  | .float x => x.toRat?.map fun q => if q < 0 then q.ceil else q.floor
  | .text s => wholeNumber? s
  | _ => none

/-- A double: whole numbers within the range are taken over, texts are read. -/
def double : Value → Option Double
  | .int n => (Number.int n).toDouble?
  | .bool b => some (if b then .finite 1 else .zero false)
  | .float x => some x
  | .text s => double? s
  | _ => none

/-- An optional double. -/
def optionalDouble : Value → Option (Option Double)
  | .null => some none
  | v => (double v).map some

end Conversion

open Conversion

/-- The phase record of a mapping. -/
def PhaseRecord.ofFields? (v : Value) : Result PhaseRecord := do
  let es ← entries v
  let name ← field es "name" text (some (.text Phase.initial.text))
  let message ← field es "message" text (some (.text ""))
  let lastTransition ← field es "last_transition_time" moment (some none)
  let lastUpdate ← field es "last_update_time" moment (some none)
  return { name, message, lastTransition, lastUpdate }

/-- The specification of an operator source. -/
def SourceSpec.ofFields? (v : Value) : Result SourceSpec := do
  let es ← entries v
  let registryType ← field es "type" text (some (.text "appregistry"))
  let endpoint ← field es "endpoint" text (some (.text ""))
  let registryNamespace ← field es "registry_namespace" text (some (.text ""))
  let displayName ← field es "display_name" text (some (.text ""))
  let publisher ← field es "publisher" text (some (.text ""))
  return { registryType, endpoint, registryNamespace, displayName, publisher }

/-- The specification of a catalog source config. -/
def CatalogSpec.ofFields? (v : Value) : Result CatalogSpec := do
  let es ← entries v
  let targetNamespace ← field es "target_namespace" text (some (.text ""))
  let packages ← field es "packages" text (some (.text ""))
  let displayName ← field es "display_name" text (some (.text ""))
  let publisher ← field es "publisher" text (some (.text ""))
  let source ← field es "source" text (some (.text ""))
  return { targetNamespace, packages, displayName, publisher, source }

/-- A package summary. -/
def PackageSummary.ofFields? (v : Value) : Result PackageSummary := do
  let es ← entries v
  let packageId ← field es "package_id" text
  let source ← field es "source" text (some (.text ""))
  return { packageId, source }

/-- The status of an operator source. -/
def OperatorSource.statusOfFields? (v : Value) : Result (PhaseRecord × Value) := do
  let es ← entries v
  let phase ← field es "current_phase" (inner PhaseRecord.ofFields?) (some {})
  let packages ← field es "packages" text (some (.text ""))
  return (phase, packages)

/-- The status of a catalog source config. -/
def CatalogSourceConfig.statusOfFields? (v : Value) :
    Result (PhaseRecord × List PackageSummary) := do
  let es ← entries v
  let phase ← field es "current_phase" (inner PhaseRecord.ofFields?) (some {})
  let packages ← field es "packages" (list PackageSummary.ofFields?) (some [])
  return (phase, packages)

/-- An operator source. -/
def OperatorSource.ofFields? (v : Value) : Result OperatorSource := do
  let es ← entries v
  let name ← field es "name" text
  let ns ← field es "namespace" text
  let labels ← field es "labels" labelMap (some [])
  let spec ← field es "spec" (inner SourceSpec.ofFields?) (some {})
  let status ← field es "status" (inner OperatorSource.statusOfFields?) (some ({}, .text ""))
  return { name, ns, labels, spec, phase := status.1, packages := status.2 }

/-- A catalog source config. -/
def CatalogSourceConfig.ofFields? (v : Value) : Result CatalogSourceConfig := do
  let es ← entries v
  let name ← field es "name" text
  let ns ← field es "namespace" text
  let labels ← field es "labels" labelMap (some [])
  let spec ← field es "spec" (inner CatalogSpec.ofFields?) (some {})
  let status ← field es "status" (inner CatalogSourceConfig.statusOfFields?) (some ({}, []))
  return { name, ns, labels, spec, phase := status.1, packages := status.2 }

/-- An environment variable. -/
def EnvVar.ofFields? (v : Value) : Result EnvVar := do
  let es ← entries v
  let name ← field es "name" text
  let value ← field es "value" text (some (.text ""))
  return { name, value }

/-- A container. -/
def Container.ofFields? (v : Value) : Result Container := do
  let es ← entries v
  let name ← field es "name" text
  let image ← field es "image" text (some (.text ""))
  let env ← field es "env" (list EnvVar.ofFields?) (some [])
  return { name, image, env }

/-- A deployment. -/
def Deployment.ofFields? (v : Value) : Result Deployment := do
  let es ← entries v
  let name ← field es "name" text
  let ns ← field es "namespace" text
  let labels ← field es "labels" labelMap (some [])
  let containers ← field es "containers" (list Container.ofFields?) (some [])
  return { name, ns, labels, containers }

/-- A child object. -/
def ChildObject.ofFields? (v : Value) : Result ChildObject := do
  let es ← entries v
  let kind ← field es "kind" text
  let name ← field es "name" text
  let ns ← field es "namespace" optionalText (some .null)
  let labels ← field es "labels" labelMap (some [])
  return { kind, name, ns, labels }

/-- Proxy values. -/
def ProxyConfig.ofFields? (v : Value) : Result ProxyConfig := do
  let es ← entries v
  let http ← field es "http_proxy" text (some (.text ""))
  let https ← field es "https_proxy" text (some (.text ""))
  let exempt ← field es "no_proxy" text (some (.text ""))
  return { http, https, exempt }

/-- The cluster proxy. -/
def ClusterProxy.ofFields? (v : Value) : Result ClusterProxy := do
  let es ← entries v
  let name ← field es "name" text (some (.text singletonName))
  let ns ← field es "namespace" optionalText (some .null)
  let status ← field es "status" (inner ProxyConfig.ofFields?) (some {})
  return { name, ns, status }

/-- A default source. -/
def HubSource.ofFields? (v : Value) : Result HubSource := do
  let es ← entries v
  let name ← field es "name" text
  let disabled ← field es "disabled" bool (some false)
  return { name, disabled }

/-- An operator hub. -/
def OperatorHub.ofFields? (v : Value) : Result OperatorHub := do
  let es ← entries v
  let name ← field es "name" text (some (.text singletonName))
  let ns ← field es "namespace" optionalText (some .null)
  let sources ← field es "sources" (list HubSource.ofFields?) (some [])
  return { name, ns, sources }

/-- The manifest of the class of the given name, if there is such a class. -/
def Manifest.ofFields? (typeName : String) (v : Value) : Option (Result Manifest) :=
  match typeName with
  | "OperatorSource" => some ((OperatorSource.ofFields? v).map .operatorSource)
  | "CatalogSourceConfig" => some ((CatalogSourceConfig.ofFields? v).map .catalogSourceConfig)
  | "Deployment" => some ((Deployment.ofFields? v).map .deployment)
  | "ChildObject" => some ((ChildObject.ofFields? v).map .child)
  | "ClusterProxy" => some ((ClusterProxy.ofFields? v).map .proxy)
  | "OperatorHub" => some ((OperatorHub.ofFields? v).map .hub)
  | "ObjectPhase" => some ((PhaseRecord.ofFields? v).map (.part ∘ .phase))
  | "OperatorSourceSpec" => some ((SourceSpec.ofFields? v).map (.part ∘ .sourceSpec))
  | "OperatorSourceStatus" =>
    some ((OperatorSource.statusOfFields? v).map fun s => .part (.sourceStatus s.1 s.2))
  | "CatalogSourceConfigSpec" => some ((CatalogSpec.ofFields? v).map (.part ∘ .catalogSpec))
  | "CatalogSourceConfigStatus" =>
    some ((CatalogSourceConfig.statusOfFields? v).map fun s => .part (.catalogStatus s.1 s.2))
  | "Container" => some ((Container.ofFields? v).map (.part ∘ .container))
  | "EnvVar" => some ((EnvVar.ofFields? v).map (.part ∘ .envVar))
  | "ProxyConfig" => some ((ProxyConfig.ofFields? v).map (.part ∘ .proxyConfig))
  | "HubSource" => some ((HubSource.ofFields? v).map (.part ∘ .hubSource))
  | "PackageSummary" => some ((PackageSummary.ofFields? v).map (.part ∘ .packageSummary))
  | _ => none

end CatalogOperator
