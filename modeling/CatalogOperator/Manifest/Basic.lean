import CatalogOperator.ObjectKey
import CatalogOperator.Phase
import CatalogOperator.Value.Same

/-!
# `CatalogOperator.Manifest.Basic`: the objects of the cluster

The operator reconciles two kinds of managed resources. Each carries a specification with the desired
intent and a status with the current phase. It only reads the other objects: the workloads and other
children made for a managed resource, the cluster proxy and the operator hub.

A document may give a field any value, so fields hold values. A part of an object, such as a
container, is a manifest too, one without identity.

* `Managed`: a managed resource. `OperatorSource` and `CatalogSourceConfig` are its two kinds.
* `Manifest`: any object or part of one.
* `Manifest.key?`: the identity of an object.
* `Manifest.same`: whether two manifests count as equal.
-/

set_option autoImplicit false

namespace CatalogOperator

/-- The labels of an object. Their keys are distinct. -/
abbrev Labels := List (Value × Value)

/-- A managed resource: its identity, its labels, the desired intent, the current phase, and the
packages observed for it. -/
structure Managed (Spec Packages : Type) where
  name : Value
  ns : Value
  labels : Labels := []
  spec : Spec
  phase : PhaseRecord := {}
  packages : Packages
  deriving DecidableEq, Repr, Inhabited

/-- The desired intent of an operator source: a registry of packages. -/
structure SourceSpec where
  registryType : Value := .text "appregistry"
  endpoint : Value := .text ""
  registryNamespace : Value := .text ""
  displayName : Value := .text ""
  publisher : Value := .text ""
  deriving DecidableEq, Repr, Inhabited

/-- The desired intent of a catalog source config: packages served as a catalog. -/
structure CatalogSpec where
  targetNamespace : Value := .text ""
  packages : Value := .text ""
  displayName : Value := .text ""
  publisher : Value := .text ""
  source : Value := .text ""
  deriving DecidableEq, Repr, Inhabited

/-- A package served by a catalog, and the source it comes from. -/
structure PackageSummary where
  packageId : Value
  source : Value := .text ""
  deriving DecidableEq, Repr, Inhabited

/-- A registry of packages. Its status holds the package ids found there, separated by commas. -/
abbrev OperatorSource := Managed SourceSpec Value

/-- A set of packages served as a catalog. Its status holds summaries of the installed packages. -/
abbrev CatalogSourceConfig := Managed CatalogSpec (List PackageSummary)

/-- An environment variable of a container. -/
structure EnvVar where
  name : Value
  value : Value := .text ""
  deriving DecidableEq, Repr, Inhabited

/-- A container of a workload. -/
structure Container where
  name : Value
  image : Value := .text ""
  env : List EnvVar := []
  deriving DecidableEq, Repr, Inhabited

/-- A workload made for a managed resource. -/
structure Deployment where
  name : Value
  ns : Value
  labels : Labels := []
  containers : List Container := []
  deriving DecidableEq, Repr, Inhabited

/-- The environment of the first container, which is the one that receives the proxy values. -/
def Deployment.env (d : Deployment) : List EnvVar :=
  match d.containers with
  | [] => []
  | c :: _ => c.env

/-- An object of which only the identity and the labels are known. -/
structure ChildObject where
  kind : Value
  name : Value
  ns : Value := .null
  labels : Labels := []
  deriving DecidableEq, Repr, Inhabited

/-- The proxy values of the cluster. -/
structure ProxyConfig where
  http : Value := .text ""
  https : Value := .text ""
  exempt : Value := .text ""
  deriving DecidableEq, Repr, Inhabited

/-- The name of the objects of which a cluster has only one. -/
def singletonName : String := "cluster"

/-- The object that holds the proxy values of the cluster. -/
structure ClusterProxy where
  name : Value := .text singletonName
  ns : Value := .null
  status : ProxyConfig := {}
  deriving DecidableEq, Repr, Inhabited

/-- A default source, and whether it is disabled. -/
structure HubSource where
  name : Value
  disabled : Bool := false
  deriving DecidableEq, Repr, Inhabited

/-- The object that lists the default sources of the cluster. -/
structure OperatorHub where
  name : Value := .text singletonName
  ns : Value := .null
  sources : List HubSource := []
  deriving DecidableEq, Repr, Inhabited

/-- Whether the hub lists a source of the given name that is not disabled. -/
def OperatorHub.enables (h : OperatorHub) (name : Value) : Bool :=
  h.sources.any fun s => s.name.same name && !s.disabled

/-- A part of an object. It has no identity of its own. -/
inductive Part where
  | phase (r : PhaseRecord)
  | sourceSpec (s : SourceSpec)
  | sourceStatus (phase : PhaseRecord) (packages : Value)
  | catalogSpec (s : CatalogSpec)
  | catalogStatus (phase : PhaseRecord) (packages : List PackageSummary)
  | container (c : Container)
  | envVar (v : EnvVar)
  | proxyConfig (c : ProxyConfig)
  | hubSource (s : HubSource)
  | packageSummary (p : PackageSummary)
  deriving DecidableEq, Repr, Inhabited

/-- An object of the cluster or a part of one. -/
inductive Manifest where
  | operatorSource (r : OperatorSource)
  | catalogSourceConfig (r : CatalogSourceConfig)
  | deployment (d : Deployment)
  | child (c : ChildObject)
  | proxy (p : ClusterProxy)
  | hub (h : OperatorHub)
  | part (p : Part)
  deriving DecidableEq, Repr, Inhabited

/-! ### Identity -/

/-- The names of the kinds the operator knows. -/
def Kind.operatorSource : String := "OperatorSource"
def Kind.catalogSourceConfig : String := "CatalogSourceConfig"
def Kind.catalogSource : String := "CatalogSource"
def Kind.deployment : String := "Deployment"
def Kind.service : String := "Service"
def Kind.serviceAccount : String := "ServiceAccount"
def Kind.role : String := "Role"
def Kind.roleBinding : String := "RoleBinding"
def Kind.proxy : String := "Proxy"
def Kind.operatorHub : String := "OperatorHub"

namespace Manifest

/-- The kind of an object. -/
def kind? : Manifest → Option Value
  | operatorSource _ => some (.text Kind.operatorSource)
  | catalogSourceConfig _ => some (.text Kind.catalogSourceConfig)
  | deployment _ => some (.text Kind.deployment)
  | child c => some c.kind
  | proxy _ => some (.text Kind.proxy)
  | hub _ => some (.text Kind.operatorHub)
  | part _ => none

/-- The identity of an object, nothing for a part. -/
def identity? : Manifest → Option ObjectKey
  | operatorSource r => some ⟨.text Kind.operatorSource, r.ns, r.name⟩
  | catalogSourceConfig r => some ⟨.text Kind.catalogSourceConfig, r.ns, r.name⟩
  | deployment d => some ⟨.text Kind.deployment, d.ns, d.name⟩
  | child c => some ⟨c.kind, c.ns, c.name⟩
  | proxy p => some ⟨.text Kind.proxy, p.ns, p.name⟩
  | hub h => some ⟨.text Kind.operatorHub, h.ns, h.name⟩
  | part _ => none

/-- The identity of an object. A part has none. -/
def key? (m : Manifest) : Except Fault ObjectKey :=
  match m.identity? with
  | some k => .ok k
  | none => .error (.invalidArgument "Object must have kind, namespace, and name attributes")

/-- The key of a managed resource, provided it can be looked up. Nothing else has one to be remembered
by. -/
def managedKey? (m : Manifest) : Except Fault ObjectKey :=
  match m with
  | operatorSource _ => m.key?.bind ObjectKey.usable?
  | catalogSourceConfig _ => m.key?.bind ObjectKey.usable?
  | _ => .error (.unsupported "only managed resources are remembered")

/-- The namespace of an object, nothing for a part. -/
def ns? (m : Manifest) : Option Value :=
  m.identity?.map (·.ns)

/-- The labels of an object that has any. -/
def labels : Manifest → Labels
  | operatorSource r => r.labels
  | catalogSourceConfig r => r.labels
  | deployment d => d.labels
  | child c => c.labels
  | _ => []

/-- An object with a label set; objects without labels stay as they are. -/
def setLabel (m : Manifest) (key value : Value) : Manifest :=
  match m with
  | operatorSource r => operatorSource { r with labels := Value.insert r.labels key value }
  | catalogSourceConfig r => catalogSourceConfig { r with labels := Value.insert r.labels key value }
  | deployment d => deployment { d with labels := Value.insert d.labels key value }
  | child c => child { c with labels := Value.insert c.labels key value }
  | m => m

/-- Whether this is the object of its kind that has the name of a singleton. -/
def isSingleton (m : Manifest) : Bool :=
  match m with
  | part (.container c) => c.name == .text singletonName
  | part (.phase r) => r.name == .text singletonName
  | part (.envVar v) => v.name == .text singletonName
  | part (.hubSource s) => s.name == .text singletonName
  | m => (m.identity?.map (·.name)) == some (.text singletonName)

/-- The name of the class of a manifest. -/
def typeName : Manifest → String
  | operatorSource _ => "OperatorSource"
  | catalogSourceConfig _ => "CatalogSourceConfig"
  | deployment _ => "Deployment"
  | child _ => "ChildObject"
  | proxy _ => "ClusterProxy"
  | hub _ => "OperatorHub"
  | part (.phase _) => "ObjectPhase"
  | part (.sourceSpec _) => "OperatorSourceSpec"
  | part (.sourceStatus _ _) => "OperatorSourceStatus"
  | part (.catalogSpec _) => "CatalogSourceConfigSpec"
  | part (.catalogStatus _ _) => "CatalogSourceConfigStatus"
  | part (.container _) => "Container"
  | part (.envVar _) => "EnvVar"
  | part (.proxyConfig _) => "ProxyConfig"
  | part (.hubSource _) => "HubSource"
  | part (.packageSummary _) => "PackageSummary"

end Manifest

/-! ### Contents

The content of a manifest is the list of its fields as one value. Manifests count as equal when they
are of one class and their contents count as equal.
-/

/-- A point in time as a value, absent ones included. -/
def momentContent : Option Moment → Value
  | none => .null
  | some t => .moment t

namespace PhaseRecord

/-- The fields of a phase record as one value. -/
def content (r : PhaseRecord) : Value :=
  .list [r.name, r.message, momentContent r.lastTransition, momentContent r.lastUpdate]

end PhaseRecord

namespace SourceSpec

/-- The fields of a specification as one value. -/
def content (s : SourceSpec) : Value :=
  .list [s.registryType, s.endpoint, s.registryNamespace, s.displayName, s.publisher]

end SourceSpec

namespace CatalogSpec

/-- The fields of a specification as one value. -/
def content (s : CatalogSpec) : Value :=
  .list [s.targetNamespace, s.packages, s.displayName, s.publisher, s.source]

end CatalogSpec

/-- The fields of a package summary as one value. -/
def PackageSummary.content (p : PackageSummary) : Value :=
  .list [p.packageId, p.source]

/-- The fields of an environment variable as one value. -/
def EnvVar.content (v : EnvVar) : Value :=
  .list [v.name, v.value]

/-- The fields of a container as one value. -/
def Container.content (c : Container) : Value :=
  .list [c.name, c.image, .list (c.env.map EnvVar.content)]

/-- The fields of the proxy values as one value. -/
def ProxyConfig.content (c : ProxyConfig) : Value :=
  .list [c.http, c.https, c.exempt]

/-- The fields of a default source as one value. -/
def HubSource.content (s : HubSource) : Value :=
  .list [s.name, .bool s.disabled]

/-- The fields of a part as one value. -/
def Part.content : Part → Value
  | phase r => r.content
  | sourceSpec s => s.content
  | sourceStatus r packages => .list [r.content, packages]
  | catalogSpec s => s.content
  | catalogStatus r packages => .list [r.content, .list (packages.map PackageSummary.content)]
  | container c => c.content
  | envVar v => v.content
  | proxyConfig c => c.content
  | hubSource s => s.content
  | packageSummary p => p.content

/-- The fields of a manifest as one value. -/
def Manifest.content : Manifest → Value
  | operatorSource r =>
    .list [r.name, r.ns, .map r.labels, r.spec.content, r.phase.content, r.packages]
  | catalogSourceConfig r =>
    .list [r.name, r.ns, .map r.labels, r.spec.content, r.phase.content,
      .list (r.packages.map PackageSummary.content)]
  | deployment d =>
    .list [d.name, d.ns, .map d.labels, .list (d.containers.map Container.content)]
  | child c => .list [c.kind, c.name, c.ns, .map c.labels]
  | proxy p => .list [p.name, p.ns, p.status.content]
  | hub h => .list [h.name, h.ns, .list (h.sources.map HubSource.content)]
  | part p => p.content

/-- Whether two manifests count as equal. -/
def Manifest.same (a b : Manifest) : Bool :=
  a.typeName == b.typeName && a.content.same b.content

/-- Every manifest counts as equal to itself. -/
@[simp] theorem Manifest.same_refl (a : Manifest) : a.same a = true := by
  simp [Manifest.same]

/-! ### The managed kinds -/

/-- A kind of managed resource: its name, the packages of a fresh status, and its place among the
manifests. -/
class ManagedKind (Spec : Type) (Packages : outParam Type) where
  kind : String
  noPackages : Packages
  toManifest : Managed Spec Packages → Manifest
  ofManifest? : Manifest → Option (Managed Spec Packages)
  ofManifest?_eq_some_iff : ∀ m r, ofManifest? m = some r ↔ m = toManifest r
  identity?_toManifest : ∀ r, (toManifest r).identity? = some ⟨.text kind, r.ns, r.name⟩

instance : ManagedKind SourceSpec Value where
  kind := Kind.operatorSource
  noPackages := .text ""
  toManifest := .operatorSource
  ofManifest?
    | .operatorSource r => some r
    | _ => none
  ofManifest?_eq_some_iff m r := by cases m <;> simp
  identity?_toManifest _ := rfl

instance : ManagedKind CatalogSpec (List PackageSummary) where
  kind := Kind.catalogSourceConfig
  noPackages := []
  toManifest := .catalogSourceConfig
  ofManifest?
    | .catalogSourceConfig r => some r
    | _ => none
  ofManifest?_eq_some_iff m r := by cases m <;> simp
  identity?_toManifest _ := rfl

namespace Managed

variable {Spec Packages : Type}

section

variable [ManagedKind Spec Packages]

/-- The identity of a managed resource. -/
def key (r : Managed Spec Packages) : ObjectKey :=
  ⟨.text (ManagedKind.kind Spec), r.ns, r.name⟩

/-- The resource as a manifest. -/
def toManifest (r : Managed Spec Packages) : Manifest :=
  ManagedKind.toManifest r

/-- The resource with a fresh status. -/
def resetStatus (r : Managed Spec Packages) : Managed Spec Packages :=
  { r with phase := {}, packages := ManagedKind.noPackages Spec }

end

/-- Namespace and name, the former even if it does not count as present. -/
def namespacedName (r : Managed Spec Packages) : String :=
  r.ns.plain ++ "/" ++ r.name.plain

/-- The resource with a label set. -/
def setLabel (r : Managed Spec Packages) (key value : Value) : Managed Spec Packages :=
  { r with labels := Value.insert r.labels key value }

end Managed

end CatalogOperator
