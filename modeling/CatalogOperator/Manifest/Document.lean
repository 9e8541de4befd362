import CatalogOperator.Manifest.Conversion

/-!
# `CatalogOperator.Manifest.Document`: objects from cluster documents

The document of a cluster object names its kind and its API version, and holds metadata, a
specification and a status. Reading it checks what identifies the object and takes over all other
values as they are. Parts that do not count as present stand for empty ones.

A document that lacks something it must have is malformed. Asking a value of the wrong type for its
entries or its items is a fault of its own.

* `Manifest.ofDocument?`: the object of a document, its class chosen by the kind.
* `Manifest.ofDocumentAs?`: the object of the given class.
-/

set_option autoImplicit false

namespace CatalogOperator

namespace Document

open Conversion (Result)

/-- The entry of a value under a key, absent if there is none. Only mappings have entries. -/
def find (v : Value) (key : String) : Result (Option Value) :=
  match v with
  | .map es => .ok (Value.get? es key)
  | v => .error (Fault.lacking v "get")

/-- The entry under a key, or a default if there is no entry. -/
def get (v : Value) (key : String) (default : Value := .null) : Result Value :=
  (find v key).map fun e => e.getD default

/-- The entry under a key, or an empty mapping in place of one that does not count as present. -/
def section? (v : Value) (key : String) : Result Value :=
  (get v key).map fun e => e.orElse (.map [])

/-- The items under a key, none if the entry does not count as present. -/
def items (v : Value) (key : String) : Result (List Value) := do
  let e ← get v key
  if e.isTrue then
    match Conversion.items e with
    | some vs => return vs
    | none => .error (Fault.notIterable e)
  else return []

/-- The fault of a document that is malformed for the given reason. -/
def malformed (problem : String) (doc : Value) : Fault :=
  .malformedDocument ("Invalid " ++ problem ++ ": " ++ doc.plain)

/-- The API domain of the managed kinds. -/
def marketplaceDomain : String := "operators.coreos.com"

/-- The API domain of the cluster configuration. -/
def configDomain : String := "config.openshift.io"

/-- The API domain of workloads. -/
def appsDomain : String := "apps/"

/-- Checks that the API version of a document starts with a domain. -/
def checkVersion (doc : Value) (domain : String) : Result Unit := do
  let version ← get doc "apiVersion"
  if !version.isTrue then .error (malformed "object missing apiVersion" doc)
  else
    match version with
    | .text s =>
      if domain.toList.isPrefixOf s.toList then return ()
      else .error (malformed ("object expected '" ++ domain ++ "'") doc)
    | .bytes _ =>
      .error (.wrongType "startswith first arg must be bytes or a tuple of bytes, not str")
    | v => .error (Fault.lacking v "startswith")

/-- The key and the value that a value of two items stands for. -/
def entryOfItem (position : Nat) (v : Value) : Result (Value × Value) :=
  match Conversion.items v with
  | none =>
    .error (.wrongType ("cannot convert dictionary update sequence element #" ++
      toString position ++ " to a sequence"))
  | some [k, w] => if k.isScalar then .ok (k, w) else .error (Fault.notAKey k)
  | some vs =>
    .error (.invalidArgument ("dictionary update sequence element #" ++ toString position ++
      " has length " ++ toString vs.length ++ "; 2 is required"))

/-- The entries that a list of values of two items each stands for. -/
def entriesOfItems (position : Nat) : List Value → Result (List (Value × Value))
  | [] => return []
  | v :: vs => do
    let e ← entryOfItem position v
    let es ← entriesOfItems (position + 1) vs
    return e :: es

/-- The labels of the metadata: a mapping, or values of two items each. -/
def labels (metadata : Value) : Result Labels := do
  match ← section? metadata "labels" with
  | .map es => return es
  | v =>
    match Conversion.items v with
    | none => .error (Fault.notIterable v)
    | some vs => return Value.mapOf (← entriesOfItems 0 vs)

/-- What the metadata of a document says about its object. -/
structure Metadata where
  name : Value
  ns : Value
  labels : Labels

/-- The metadata of a document. The name is required, the namespace only of namespaced objects. -/
def metadata (typeName : String) (doc : Value) (namespaced : Bool) : Result Metadata := do
  let shown := "<class 'marketplace_operator.manifest." ++ typeName ++ "'>"
  let metadata ← get doc "metadata"
  if !metadata.isTrue then .error (malformed (shown ++ " missing metadata") doc)
  else
    let name ← get metadata "name"
    if !name.isTrue then .error (malformed (shown ++ " missing metadata.name") doc)
    else
      let ns ← get metadata "namespace"
      if namespaced && !ns.isTrue then
        .error (malformed (shown ++ " missing metadata.namespace") doc)
      else return ⟨name, ns, ← labels metadata⟩

/-- An environment variable. -/
def envVar (doc : Value) : Result EnvVar := do
  let name ← get doc "name"
  if !name.isTrue then
    .error (malformed "<class 'marketplace_operator.manifest.EnvVar'> missing name" doc)
  else return ⟨name, (← get doc "value").orElse (.text "")⟩

/-- The phase record of the current phase in a status. -/
def phase (current : Value) : Result PhaseRecord := do
  if !current.isTrue then return {}
  else
    let phase ← section? current "phase"
    let name ← get phase "name"
    let message ← get phase "message"
    return { name := name.orElse (.text Phase.initial.text), message := message.orElse (.text "") }

/-- An operator source. -/
def operatorSource (doc : Value) : Result OperatorSource := do
  checkVersion doc marketplaceDomain
  let m ← metadata "OperatorSource" doc true
  let spec ← section? doc "spec"
  let status ← section? doc "status"
  let registryType ← get spec "type" (.text "appregistry")
  let endpoint ← get spec "endpoint" (.text "")
  let registryNamespace ← get spec "registryNamespace" (.text "")
  let displayName ← get spec "displayName" (.text "")
  let publisher ← get spec "publisher" (.text "")
  let phase ← phase (← get status "currentPhase")
  let packages ← get status "packages" (.text "")
  return {
    name := m.name
    ns := m.ns
    labels := m.labels
    spec := { registryType, endpoint, registryNamespace, displayName, publisher }
    phase
    packages }

/-- A catalog source config. Package summaries are not read. -/
def catalogSourceConfig (doc : Value) : Result CatalogSourceConfig := do
  checkVersion doc marketplaceDomain
  let m ← metadata "CatalogSourceConfig" doc true
  let spec ← section? doc "spec"
  let status ← section? doc "status"
  let targetNamespace ← get spec "targetNamespace" (.text "")
  let packages ← get spec "packages" (.text "")
  let displayName ← get spec "csDisplayName" (.text "")
  let publisher ← get spec "csPublisher" (.text "")
  let source ← get spec "source" (.text "")
  let phase ← phase (← get status "currentPhase")
  return {
    name := m.name
    ns := m.ns
    labels := m.labels
    spec := { targetNamespace, packages, displayName, publisher, source }
    phase
    packages := [] }

/-- A container of a pod template. -/
def container (doc : Value) : Result Container := do
  let name ← get doc "name" (.text "")
  let image ← get doc "image" (.text "")
  let env ← (← items doc "env").mapM envVar
  return { name, image, env }

/-- A deployment. -/
def deployment (doc : Value) : Result Deployment := do
  checkVersion doc appsDomain
  let m ← metadata "Deployment" doc true
  let spec ← section? doc "spec"
  let template ← section? spec "template"
  let pod ← section? template "spec"
  let containers ← (← items pod "containers").mapM container
  return { name := m.name, ns := m.ns, labels := m.labels, containers }

/-- A child object. -/
def childObject (doc : Value) : Result ChildObject := do
  let kind ← get doc "kind"
  if !kind.isTrue then .error (malformed "object missing kind" doc)
  else
    let m ← metadata "ChildObject" doc false
    return { kind, name := m.name, ns := m.ns, labels := m.labels }

/-- The cluster proxy. It has no namespace, whatever the metadata says. -/
def clusterProxy (doc : Value) : Result ClusterProxy := do
  checkVersion doc configDomain
  let m ← metadata "ClusterProxy" doc false
  let status ← section? doc "status"
  let http ← get status "httpProxy" (.text "")
  let https ← get status "httpsProxy" (.text "")
  let exempt ← get status "noProxy" (.text "")
  return { name := m.name, status := { http, https, exempt } }

/-- A default source. It must be a mapping with a name. -/
def hubSource (doc : Value) : Result HubSource :=
  match doc with
  | .map es =>
    match Value.get? es "name" with
    | none => .error (.missingKey (.text "name"))
    | some name =>
      .ok { name, disabled := ((Value.get? es "disabled").getD .null).isTrue }
  | v => .error (.wrongType (Text.quoted v.typeName ++ " object has no entries"))

/-- An operator hub. It has no namespace, whatever the metadata says. -/
def operatorHub (doc : Value) : Result OperatorHub := do
  checkVersion doc configDomain
  let m ← metadata "OperatorHub" doc false
  let spec ← section? doc "spec"
  let sources ← (← items spec "sources").mapM hubSource
  return { name := m.name, sources }

end Document

open Document in
/-- The object of a document. The kind decides its class; kinds that are not known by name are child
objects. -/
def Manifest.ofDocument? (doc : Value) : Except Fault Manifest := do
  let kind ← get doc "kind"
  if !kind.isTrue then .error (malformed "object missing kind" doc)
  else
    let version ← get doc "apiVersion"
    if !version.isTrue then .error (malformed "object missing apiVersion" doc)
    else if kind == .text Kind.operatorSource then (Document.operatorSource doc).map .operatorSource
    else if kind == .text Kind.catalogSourceConfig then
      (Document.catalogSourceConfig doc).map .catalogSourceConfig
    else if kind == .text Kind.deployment then (Document.deployment doc).map .deployment
    else if kind == .text Kind.proxy then (Document.clusterProxy doc).map .proxy
    else if kind == .text Kind.operatorHub then (Document.operatorHub doc).map .hub
    else (Document.childObject doc).map .child

open Document in
/-- The manifest of the class of the given name, if documents of that class can be read. -/
def Manifest.ofDocumentAs? (typeName : String) (doc : Value) : Option (Except Fault Manifest) :=
  match typeName with
  | "OperatorSource" => some ((Document.operatorSource doc).map .operatorSource)
  | "CatalogSourceConfig" => some ((Document.catalogSourceConfig doc).map .catalogSourceConfig)
  | "Deployment" => some ((Document.deployment doc).map .deployment)
  | "ChildObject" => some ((Document.childObject doc).map .child)
  | "ClusterProxy" => some ((Document.clusterProxy doc).map .proxy)
  | "OperatorHub" => some ((Document.operatorHub doc).map .hub)
  | "EnvVar" => some ((Document.envVar doc).map (.part ∘ .envVar))
  | "ObjectPhase" => some ((Document.phase doc).map (.part ∘ .phase))
  | _ => none

end CatalogOperator
