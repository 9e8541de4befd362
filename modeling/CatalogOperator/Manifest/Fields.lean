import CatalogOperator.Manifest.Basic

/-!
# `CatalogOperator.Manifest.Fields`: manifests as mappings of fields

A manifest is stored and shown as a mapping from the names of its fields to their values, parts
nested as mappings of their own. Points in time stand there in their ISO form. Fields that may be
absent, the points in time and the namespaces of objects that need none, are left out when they are.

* `Manifest.fields`: the mapping of a manifest.
-/

set_option autoImplicit false

namespace CatalogOperator

namespace Fields

/-- A mapping with the given fields. -/
def record (fields : List (String × Value)) : Value :=
  .map (fields.map fun f => (.text f.1, f.2))

/-- A field that is left out when it is absent. -/
def optional (name : String) (v : Value) : List (String × Value) :=
  if v = .null then [] else [(name, v)]

/-- A point in time in its ISO form. -/
def moment : Option Moment → Value
  | none => .null
  | some t => .text t.text

end Fields

open Fields

/-- The fields of a phase record. -/
def PhaseRecord.fields (r : PhaseRecord) : Value :=
  record ([("name", r.name), ("message", r.message)] ++
    optional "last_transition_time" (moment r.lastTransition) ++
    optional "last_update_time" (moment r.lastUpdate))

/-- The fields of the specification of an operator source. -/
def SourceSpec.fields (s : SourceSpec) : Value :=
  record [("type", s.registryType), ("endpoint", s.endpoint),
    ("registry_namespace", s.registryNamespace), ("display_name", s.displayName),
    ("publisher", s.publisher)]

/-- The fields of the specification of a catalog source config. -/
def CatalogSpec.fields (s : CatalogSpec) : Value :=
  record [("target_namespace", s.targetNamespace), ("packages", s.packages),
    ("display_name", s.displayName), ("publisher", s.publisher), ("source", s.source)]

/-- The fields of a package summary. -/
def PackageSummary.fields (p : PackageSummary) : Value :=
  record [("package_id", p.packageId), ("source", p.source)]

/-- The fields of the status of an operator source. -/
def OperatorSource.statusFields (phase : PhaseRecord) (packages : Value) : Value :=
  record [("current_phase", phase.fields), ("packages", packages)]

/-- The fields of the status of a catalog source config. -/
def CatalogSourceConfig.statusFields (phase : PhaseRecord) (packages : List PackageSummary) :
    Value :=
  record [("current_phase", phase.fields),
    ("packages", .list (packages.map PackageSummary.fields))]

/-- The fields of an operator source. -/
def OperatorSource.fields (r : OperatorSource) : Value :=
  record [("name", r.name), ("namespace", r.ns), ("labels", .map r.labels),
    ("spec", r.spec.fields), ("status", OperatorSource.statusFields r.phase r.packages)]

/-- The fields of a catalog source config. -/
def CatalogSourceConfig.fields (r : CatalogSourceConfig) : Value :=
  record [("name", r.name), ("namespace", r.ns), ("labels", .map r.labels),
    ("spec", r.spec.fields), ("status", CatalogSourceConfig.statusFields r.phase r.packages)]

/-- The fields of an environment variable. -/
def EnvVar.fields (v : EnvVar) : Value :=
  record [("name", v.name), ("value", v.value)]

/-- The fields of a container. -/
def Container.fields (c : Container) : Value :=
  record [("name", c.name), ("image", c.image), ("env", .list (c.env.map EnvVar.fields))]

/-- The fields of a deployment. -/
def Deployment.fields (d : Deployment) : Value :=
  record [("name", d.name), ("namespace", d.ns), ("labels", .map d.labels),
    ("containers", .list (d.containers.map Container.fields))]

/-- The fields of a child object. -/
def ChildObject.fields (c : ChildObject) : Value :=
  record ([("kind", c.kind), ("name", c.name)] ++ optional "namespace" c.ns ++
    [("labels", .map c.labels)])

/-- The fields of the proxy values. -/
def ProxyConfig.fields (c : ProxyConfig) : Value :=
  record [("http_proxy", c.http), ("https_proxy", c.https), ("no_proxy", c.exempt)]

/-- The fields of the cluster proxy. -/
def ClusterProxy.fields (p : ClusterProxy) : Value :=
  record ([("name", p.name)] ++ optional "namespace" p.ns ++ [("status", p.status.fields)])

/-- The fields of a default source. -/
def HubSource.fields (s : HubSource) : Value :=
  record [("name", s.name), ("disabled", .bool s.disabled)]

/-- The fields of an operator hub. -/
def OperatorHub.fields (h : OperatorHub) : Value :=
  record ([("name", h.name)] ++ optional "namespace" h.ns ++
    [("sources", .list (h.sources.map HubSource.fields))])

/-- The fields of a part. -/
def Part.fields : Part → Value
  | phase r => r.fields
  | sourceSpec s => s.fields
  | sourceStatus r packages => OperatorSource.statusFields r packages
  | catalogSpec s => s.fields
  | catalogStatus r packages => CatalogSourceConfig.statusFields r packages
  | container c => c.fields
  | envVar v => v.fields
  | proxyConfig c => c.fields
  | hubSource s => s.fields
  | packageSummary p => p.fields

/-- The fields of a manifest. -/
def Manifest.fields : Manifest → Value
  | operatorSource r => OperatorSource.fields r
  | catalogSourceConfig r => CatalogSourceConfig.fields r
  | deployment d => d.fields
  | child c => c.fields
  | proxy p => p.fields
  | hub h => h.fields
  | part p => p.fields

end CatalogOperator
