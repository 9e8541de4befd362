import CatalogOperator.Proofs.Manifest.Acceptance
import CatalogOperator.Proofs.Manifest.Same
import CatalogOperator.Proofs.Time.Iso

/-!
# `CatalogOperator.Proofs.Manifest.RoundTrip`: manifests read back from their fields

A field may hold any value, and reading converts each one to the type that is declared for it. Where
the fields hold values of those types to begin with, no conversion changes a value, and a field that
was left out stands for the value it had. So the manifest is read back as it was, with its labels in
the same order and its times on the same clocks.

* `Declared`: the fields of a manifest hold values of their declared types, at every level. Each class
  of parts has a predicate of its own above it.
* `field_record`: what is read of a field of a record.
* `reads_back_fields`: a manifest of declared types is read back from its fields.
-/

set_option autoImplicit false

namespace CatalogOperator

/-! ### Mappings with distinct keys -/

namespace Value

/-- A key that equals none of the keys of a dictionary is inserted at its end. -/
theorem insert_of_fresh {es : List (Value × Value)} {k v : Value}
    (h : ∀ e ∈ es, same e.1 k = false) : insert es k v = es ++ [(k, v)] := by
  induction es with
  | nil => rfl
  | cons e es ih =>
    obtain ⟨he, hes⟩ := List.forall_mem_cons.1 h
    simp [insert, he, ih hes]

/-- Entries whose keys are told apart are a mapping as they stand. -/
theorem mapOf_eq_self {es : List (Value × Value)}
    (h : es.Pairwise fun a b => same a.1 b.1 = false) : mapOf es = es := by
  -- Each entry is put behind those before it, so what has been put in is carried along.
  have hfold : ∀ put : List (Value × Value),
      (put ++ es).Pairwise (fun a b => same a.1 b.1 = false) →
        es.foldl (fun m e => insert m e.1 e.2) put = put ++ es := by
    induction es with
    | nil => simp
    | cons e es ih =>
      intro put hput
      have hfresh : ∀ d ∈ put, same d.1 e.1 = false := fun d hd =>
        (List.pairwise_append.1 hput).2.2 d hd e (by simp)
      rw [List.foldl_cons, insert_of_fresh hfresh,
        ih (List.Pairwise.of_cons h) _ (by simpa using hput)]
      simp
  exact hfold [] h

end Value

namespace Proofs.Manifest

open Conversion Fields

/-! ### Values of the declared types -/

/-- A text. -/
def Written (v : Value) : Prop :=
  ∃ s, v = .text s

/-- Labels whose keys and values are texts. -/
structure Tagged (labels : Labels) : Prop where
  texts : ∀ l ∈ labels, Written l.1 ∧ Written l.2
  distinct : labels.Pairwise fun k l => k.1 ≠ l.1

/-- The name and the message of a phase are texts, and its times are real if there are any. -/
structure PhaseDeclared (r : PhaseRecord) : Prop where
  name : Written r.name
  message : Written r.message
  lastTransition : ∀ t ∈ r.lastTransition, t.Real
  lastUpdate : ∀ t ∈ r.lastUpdate, t.Real

/-- The specification of an operator source holds texts. -/
structure SourceDeclared (s : SourceSpec) : Prop where
  registryType : Written s.registryType
  endpoint : Written s.endpoint
  registryNamespace : Written s.registryNamespace
  displayName : Written s.displayName
  publisher : Written s.publisher

/-- The specification of a catalog source config holds texts. -/
structure CatalogDeclared (s : CatalogSpec) : Prop where
  targetNamespace : Written s.targetNamespace
  packages : Written s.packages
  displayName : Written s.displayName
  publisher : Written s.publisher
  source : Written s.source

/-- A package summary holds texts. -/
structure SummaryDeclared (p : PackageSummary) : Prop where
  packageId : Written p.packageId
  source : Written p.source

/-- An environment variable holds texts. -/
structure EnvVarDeclared (v : EnvVar) : Prop where
  name : Written v.name
  value : Written v.value

/-- A container holds texts, its environment included. -/
structure ContainerDeclared (c : Container) : Prop where
  name : Written c.name
  image : Written c.image
  env : ∀ v ∈ c.env, EnvVarDeclared v

/-- The proxy values are texts. -/
structure ProxyDeclared (c : ProxyConfig) : Prop where
  http : Written c.http
  https : Written c.https
  exempt : Written c.exempt

/-- The identity, labels and phase of a managed resource hold values of their declared types. -/
structure ManagedDeclared {Spec Packages : Type} (r : Managed Spec Packages) : Prop where
  name : Written r.name
  ns : Written r.ns
  labels : Tagged r.labels
  phase : PhaseDeclared r.phase

/-- The fields of a part hold values of their declared types. -/
def PartDeclared : Part → Prop
  | .phase r => PhaseDeclared r
  | .sourceSpec s => SourceDeclared s
  | .sourceStatus r packages => PhaseDeclared r ∧ Written packages
  | .catalogSpec s => CatalogDeclared s
  | .catalogStatus r packages => PhaseDeclared r ∧ ∀ p ∈ packages, SummaryDeclared p
  | .container c => ContainerDeclared c
  | .envVar v => EnvVarDeclared v
  | .proxyConfig c => ProxyDeclared c
  | .hubSource s => Written s.name
  | .packageSummary p => SummaryDeclared p

/-- The fields of a manifest hold values of their declared types, at every level. -/
def Declared : Manifest → Prop
  | .operatorSource r => ManagedDeclared r ∧ SourceDeclared r.spec ∧ Written r.packages
  | .catalogSourceConfig r =>
    ManagedDeclared r ∧ CatalogDeclared r.spec ∧ ∀ p ∈ r.packages, SummaryDeclared p
  | .deployment d =>
    Written d.name ∧ Written d.ns ∧ Tagged d.labels ∧ ∀ c ∈ d.containers, ContainerDeclared c
  | .child c => Written c.kind ∧ Written c.name ∧ IsText c.ns ∧ Tagged c.labels
  | .proxy p => Written p.name ∧ IsText p.ns ∧ ProxyDeclared p.status
  | .hub h => Written h.name ∧ IsText h.ns ∧ ∀ s ∈ h.sources, Written s.name
  | .part p => PartDeclared p

/-! ### Fields that are read back -/

/-- What follows a result is done with it. -/
theorem ok_bind {α β : Type} (a : α) (f : α → Result β) : (.ok a : Result α) >>= f = f a :=
  rfl

/-- A record is read as the list of its fields. -/
theorem entries_record (fields : List (String × Value)) :
    entries (record fields) = .ok (fields.map fun f => (.text f.1, f.2)) :=
  rfl

/-- The entry of a record under a name is the field of that name. -/
theorem get?_record (fields : List (String × Value)) (name : String) :
    Value.get? (fields.map fun f => (.text f.1, f.2)) name = fields.lookup name := by
  induction fields with
  | nil => rfl
  | cons f fields ih =>
    obtain ⟨key, v⟩ := f
    have hkey : (Value.text key == Value.text name) = (name == key) := by
      rw [Bool.eq_iff_iff, beq_iff_eq, beq_iff_eq, Value.text.injEq, eq_comm]
    unfold Value.get? at *
    rw [List.map_cons, List.find?_cons, List.lookup_cons, hkey]
    cases name == key with
    | true => rfl
    | false => exact ih

/-- A field of a record is looked up by its name. One that is not there has its default, if it has one.
-/
theorem field_record {α : Type} (fields : List (String × Value)) (name : String)
    (convert : Value → Option α) (default? : Option α) :
    field (fields.map fun f => (.text f.1, f.2)) name convert default? =
      match fields.lookup name, default? with
      | some v, _ =>
        match convert v with
        | some a => .ok a
        | none => .error (.invalidField name)
      | none, some a => .ok a
      | none, none => .error (.missingField name) := by
  cases h : fields.lookup name with
  | none => cases default? <;> simp only [field, get?_record, h]
  | some v => cases hv : convert v <;> simp only [field, get?_record, h, hv]

/-! ### Conversions that change nothing -/

/-- A text is read as itself. -/
theorem text_of_written {v : Value} (h : Written v) : text v = some v := by
  obtain ⟨s, rfl⟩ := h
  rfl

/-- A time that is real, or none, is read as it was written. -/
theorem moment_of_real {t : Option Moment} (h : ∀ m ∈ t, m.Real) :
    Conversion.moment (Fields.moment t) = some t := by
  cases t with
  | none => rfl
  | some m => simp [Conversion.moment, Fields.moment, Moment.ofIso?_text (h m rfl)]

/-- Labels that are texts are read as they were written. -/
theorem labelMap_of_tagged {labels : Labels} (h : Tagged labels) :
    labelMap (.map labels) = some labels := by
  have hplain : labels.map (fun l => (Value.text l.1.plain, Value.text l.2.plain)) = labels := by
    refine (List.map_congr_left fun l hl => ?_).trans (List.map_id labels)
    obtain ⟨⟨k, hk⟩, ⟨v, hv⟩⟩ := h.texts l hl
    obtain ⟨_, _⟩ := l
    cases hk
    cases hv
    rfl
  have hfresh : labels.Pairwise fun k l => Value.same k.1 l.1 = false := by
    refine h.distinct.imp_of_mem fun {k l} _ hl hne => ?_
    obtain ⟨s, hs⟩ := (h.texts l hl).1
    rw [hs, Bool.eq_false_iff, ne_eq, Value.same_text_iff, ← hs]
    exact hne
  rw [labelMap, hplain, Value.mapOf_eq_self hfresh]

/-- A list is read back if each of its items is. -/
theorem list_of_items {α : Type} {convert : Value → Result α} {fields : α → Value} {as : List α}
    (h : ∀ a ∈ as, convert (fields a) = .ok a) :
    list convert (.list (as.map fields)) = some as := by
  have hall : (as.map fields).mapM convert = .ok as := by
    induction as with
    | nil => rfl
    | cons a as ih =>
      obtain ⟨ha, has⟩ := List.forall_mem_cons.1 h
      simp only [List.map_cons, List.mapM_cons, ha, ih has]
      rfl
  simp [list, items, hall, Except.toOption]

/-- What a conversion of a nested document gives is what the field holds. -/
theorem inner_of_ok {α : Type} {convert : Value → Result α} {v : Value} {a : α}
    (h : convert v = .ok a) : Conversion.inner convert v = some a := by
  simp [Conversion.inner, h, Except.toOption]

/-! ### Fields that may be left out -/

/-- A field without a value is left out. -/
theorem optional_null (name : String) : optional name .null = [] :=
  rfl

/-- A field with a text is written. -/
theorem optional_text (name s : String) : optional name (.text s) = [(name, .text s)] :=
  rfl

/-! ### Parts -/

/-- A phase is read as it was written. -/
theorem PhaseDeclared.ofFields? {r : PhaseRecord} (h : PhaseDeclared r) :
    PhaseRecord.ofFields? r.fields = .ok r := by
  obtain ⟨name, message, lastTransition, lastUpdate⟩ := r
  have hlast := moment_of_real h.lastTransition
  have hupdate := moment_of_real h.lastUpdate
  -- A time that is absent is left out, so which fields there are depends on the times.
  cases lastTransition <;> cases lastUpdate <;>
    simp only [Fields.moment] at hlast hupdate <;>
    simp only [PhaseRecord.ofFields?, PhaseRecord.fields, Fields.moment, optional_null,
      optional_text, List.append_nil, List.cons_append, List.nil_append, entries_record, ok_bind,
      field_record, List.lookup_cons, List.lookup_nil, String.reduceBEq, text_of_written h.name,
      text_of_written h.message, hlast, hupdate] <;>
    rfl

/-- The specification of an operator source is read as it was written. -/
theorem SourceDeclared.ofFields? {s : SourceSpec} (h : SourceDeclared s) :
    SourceSpec.ofFields? s.fields = .ok s := by
  simp only [SourceSpec.ofFields?, SourceSpec.fields, entries_record, ok_bind, field_record,
    List.lookup_cons, String.reduceBEq, text_of_written h.registryType, text_of_written h.endpoint,
    text_of_written h.registryNamespace, text_of_written h.displayName,
    text_of_written h.publisher]
  rfl

/-- The specification of a catalog source config is read as it was written. -/
theorem CatalogDeclared.ofFields? {s : CatalogSpec} (h : CatalogDeclared s) :
    CatalogSpec.ofFields? s.fields = .ok s := by
  simp only [CatalogSpec.ofFields?, CatalogSpec.fields, entries_record, ok_bind, field_record,
    List.lookup_cons, String.reduceBEq, text_of_written h.targetNamespace,
    text_of_written h.packages, text_of_written h.displayName, text_of_written h.publisher,
    text_of_written h.source]
  rfl

/-- A package summary is read as it was written. -/
theorem SummaryDeclared.ofFields? {p : PackageSummary} (h : SummaryDeclared p) :
    PackageSummary.ofFields? p.fields = .ok p := by
  simp only [PackageSummary.ofFields?, PackageSummary.fields, entries_record, ok_bind, field_record,
    List.lookup_cons, String.reduceBEq, text_of_written h.packageId, text_of_written h.source]
  rfl

/-- The status of an operator source is read as it was written. -/
theorem sourceStatus_ofFields? {r : PhaseRecord} {packages : Value} (h : PhaseDeclared r)
    (hpackages : Written packages) :
    OperatorSource.statusOfFields? (OperatorSource.statusFields r packages) =
      .ok (r, packages) := by
  simp only [OperatorSource.statusOfFields?, OperatorSource.statusFields, entries_record, ok_bind,
    field_record, List.lookup_cons, String.reduceBEq, inner_of_ok h.ofFields?,
    text_of_written hpackages]
  rfl

/-- The status of a catalog source config is read as it was written. -/
theorem catalogStatus_ofFields? {r : PhaseRecord} {packages : List PackageSummary}
    (h : PhaseDeclared r) (hpackages : ∀ p ∈ packages, SummaryDeclared p) :
    CatalogSourceConfig.statusOfFields? (CatalogSourceConfig.statusFields r packages) =
      .ok (r, packages) := by
  have hlist : list PackageSummary.ofFields? (.list (packages.map PackageSummary.fields)) =
      some packages := list_of_items fun p hp => (hpackages p hp).ofFields?
  simp only [CatalogSourceConfig.statusOfFields?, CatalogSourceConfig.statusFields, entries_record,
    ok_bind, field_record, List.lookup_cons, String.reduceBEq, inner_of_ok h.ofFields?, hlist]
  rfl

/-- An environment variable is read as it was written. -/
theorem EnvVarDeclared.ofFields? {v : EnvVar} (h : EnvVarDeclared v) :
    EnvVar.ofFields? v.fields = .ok v := by
  simp only [EnvVar.ofFields?, EnvVar.fields, entries_record, ok_bind, field_record,
    List.lookup_cons, String.reduceBEq, text_of_written h.name, text_of_written h.value]
  rfl

/-- A container is read as it was written, with its environment. -/
theorem ContainerDeclared.ofFields? {c : Container} (h : ContainerDeclared c) :
    Container.ofFields? c.fields = .ok c := by
  have henv : list EnvVar.ofFields? (.list (c.env.map EnvVar.fields)) = some c.env :=
    list_of_items fun v hv => (h.env v hv).ofFields?
  simp only [Container.ofFields?, Container.fields, entries_record, ok_bind, field_record,
    List.lookup_cons, String.reduceBEq, text_of_written h.name, text_of_written h.image, henv]
  rfl

/-- The proxy values are read as they were written. -/
theorem ProxyDeclared.ofFields? {c : ProxyConfig} (h : ProxyDeclared c) :
    ProxyConfig.ofFields? c.fields = .ok c := by
  simp only [ProxyConfig.ofFields?, ProxyConfig.fields, entries_record, ok_bind, field_record,
    List.lookup_cons, String.reduceBEq, text_of_written h.http, text_of_written h.https,
    text_of_written h.exempt]
  rfl

/-- A source of the hub is read as it was written. -/
theorem hubSource_ofFields? {s : HubSource} (h : Written s.name) :
    HubSource.ofFields? s.fields = .ok s := by
  simp only [HubSource.ofFields?, HubSource.fields, entries_record, ok_bind, field_record,
    List.lookup_cons, String.reduceBEq, text_of_written h, Conversion.bool]
  rfl

/-! ### Manifests -/

/-- An operator source is read as it was written. -/
theorem operatorSource_ofFields? {r : OperatorSource} (h : ManagedDeclared r)
    (hspec : SourceDeclared r.spec) (hpackages : Written r.packages) :
    OperatorSource.ofFields? (OperatorSource.fields r) = .ok r := by
  simp only [OperatorSource.ofFields?, OperatorSource.fields, entries_record, ok_bind, field_record,
    List.lookup_cons, String.reduceBEq, text_of_written h.name, text_of_written h.ns,
    labelMap_of_tagged h.labels, inner_of_ok hspec.ofFields?,
    inner_of_ok (sourceStatus_ofFields? h.phase hpackages)]
  rfl

/-- A catalog source config is read as it was written. -/
theorem catalogSourceConfig_ofFields? {r : CatalogSourceConfig} (h : ManagedDeclared r)
    (hspec : CatalogDeclared r.spec) (hpackages : ∀ p ∈ r.packages, SummaryDeclared p) :
    CatalogSourceConfig.ofFields? (CatalogSourceConfig.fields r) = .ok r := by
  simp only [CatalogSourceConfig.ofFields?, CatalogSourceConfig.fields, entries_record, ok_bind,
    field_record, List.lookup_cons, String.reduceBEq, text_of_written h.name,
    text_of_written h.ns, labelMap_of_tagged h.labels, inner_of_ok hspec.ofFields?,
    inner_of_ok (catalogStatus_ofFields? h.phase hpackages)]
  rfl

/-- A deployment is read as it was written. -/
theorem deployment_ofFields? {d : Deployment} (hname : Written d.name) (hns : Written d.ns)
    (hlabels : Tagged d.labels) (hcontainers : ∀ c ∈ d.containers, ContainerDeclared c) :
    Deployment.ofFields? d.fields = .ok d := by
  have hlist : list Container.ofFields? (.list (d.containers.map Container.fields)) =
      some d.containers := list_of_items fun c hc => (hcontainers c hc).ofFields?
  simp only [Deployment.ofFields?, Deployment.fields, entries_record, ok_bind, field_record,
    List.lookup_cons, String.reduceBEq, text_of_written hname, text_of_written hns,
    labelMap_of_tagged hlabels, hlist]
  rfl

/-- A child object is read as it was written. -/
theorem child_ofFields? {c : ChildObject} (hkind : Written c.kind) (hname : Written c.name)
    (hns : IsText c.ns) (hlabels : Tagged c.labels) :
    ChildObject.ofFields? c.fields = .ok c := by
  obtain ⟨kind, name, ns, labels⟩ := c
  rcases hns with rfl | ⟨s, rfl⟩ <;>
    simp only [ChildObject.ofFields?, ChildObject.fields, optional_null, optional_text,
      List.append_nil, List.cons_append, List.nil_append, entries_record, ok_bind, field_record,
      List.lookup_cons, List.lookup_nil, String.reduceBEq, text_of_written hkind,
      text_of_written hname, labelMap_of_tagged hlabels] <;>
    rfl

/-- A cluster proxy is read as it was written. -/
theorem proxy_ofFields? {p : ClusterProxy} (hname : Written p.name) (hns : IsText p.ns)
    (hstatus : ProxyDeclared p.status) : ClusterProxy.ofFields? p.fields = .ok p := by
  obtain ⟨name, ns, status⟩ := p
  rcases hns with rfl | ⟨s, rfl⟩ <;>
    simp only [ClusterProxy.ofFields?, ClusterProxy.fields, optional_null, optional_text,
      List.append_nil, List.cons_append, List.nil_append, entries_record, ok_bind, field_record,
      List.lookup_cons, List.lookup_nil, String.reduceBEq, text_of_written hname,
      inner_of_ok hstatus.ofFields?] <;>
    rfl

/-- The hub is read as it was written. -/
theorem hub_ofFields? {h : OperatorHub} (hname : Written h.name) (hns : IsText h.ns)
    (hsources : ∀ s ∈ h.sources, Written s.name) : OperatorHub.ofFields? h.fields = .ok h := by
  obtain ⟨name, ns, sources⟩ := h
  have hlist : list HubSource.ofFields? (.list (sources.map HubSource.fields)) = some sources :=
    list_of_items fun s hs => hubSource_ofFields? (hsources s hs)
  rcases hns with rfl | ⟨s, rfl⟩ <;>
    simp only [OperatorHub.ofFields?, OperatorHub.fields, optional_null, optional_text,
      List.append_nil, List.cons_append, List.nil_append, entries_record, ok_bind, field_record,
      List.lookup_cons, List.lookup_nil, String.reduceBEq, text_of_written hname, hlist] <;>
    rfl

/-- A part is read as it was written, by the class that wrote it. -/
theorem part_ofFields? {p : Part} (h : PartDeclared p) :
    Manifest.ofFields? (Manifest.part p).typeName p.fields = some (.ok (.part p)) := by
  cases p with
  | phase r => simp [Manifest.ofFields?, Manifest.typeName, Part.fields, h.ofFields?, Except.map]
  | sourceSpec s =>
    simp [Manifest.ofFields?, Manifest.typeName, Part.fields, h.ofFields?, Except.map]
  | sourceStatus r packages =>
    simp [Manifest.ofFields?, Manifest.typeName, Part.fields, sourceStatus_ofFields? h.1 h.2,
      Except.map]
  | catalogSpec s =>
    simp [Manifest.ofFields?, Manifest.typeName, Part.fields, h.ofFields?, Except.map]
  | catalogStatus r packages =>
    simp [Manifest.ofFields?, Manifest.typeName, Part.fields, catalogStatus_ofFields? h.1 h.2,
      Except.map]
  | container c =>
    simp [Manifest.ofFields?, Manifest.typeName, Part.fields, h.ofFields?, Except.map]
  | envVar v => simp [Manifest.ofFields?, Manifest.typeName, Part.fields, h.ofFields?, Except.map]
  | proxyConfig c =>
    simp [Manifest.ofFields?, Manifest.typeName, Part.fields, h.ofFields?, Except.map]
  | hubSource s =>
    simp [Manifest.ofFields?, Manifest.typeName, Part.fields, hubSource_ofFields? h, Except.map]
  | packageSummary p =>
    simp [Manifest.ofFields?, Manifest.typeName, Part.fields, h.ofFields?, Except.map]

/-- A manifest whose fields hold values of their declared types, at every level, is read back from
its fields. -/
theorem reads_back_fields (m : Manifest) (h : Declared m) :
    Manifest.ofFields? m.typeName m.fields = some (.ok m) := by
  cases m with
  | operatorSource r =>
    obtain ⟨hmanaged, hspec, hpackages⟩ := h
    simp [Manifest.ofFields?, Manifest.typeName, Manifest.fields,
      operatorSource_ofFields? hmanaged hspec hpackages, Except.map]
  | catalogSourceConfig r =>
    obtain ⟨hmanaged, hspec, hpackages⟩ := h
    simp [Manifest.ofFields?, Manifest.typeName, Manifest.fields,
      catalogSourceConfig_ofFields? hmanaged hspec hpackages, Except.map]
  | deployment d =>
    obtain ⟨hname, hns, hlabels, hcontainers⟩ := h
    simp [Manifest.ofFields?, Manifest.typeName, Manifest.fields,
      deployment_ofFields? hname hns hlabels hcontainers, Except.map]
  | child c =>
    obtain ⟨hkind, hname, hns, hlabels⟩ := h
    simp [Manifest.ofFields?, Manifest.typeName, Manifest.fields,
      child_ofFields? hkind hname hns hlabels, Except.map]
  | proxy p =>
    obtain ⟨hname, hns, hstatus⟩ := h
    simp [Manifest.ofFields?, Manifest.typeName, Manifest.fields,
      proxy_ofFields? hname hns hstatus, Except.map]
  | hub o =>
    obtain ⟨hname, hns, hsources⟩ := h
    simp [Manifest.ofFields?, Manifest.typeName, Manifest.fields,
      hub_ofFields? hname hns hsources, Except.map]
  | part p => exact part_ofFields? h

/-- A catalog source config that became what it is at noon of a leap day, with no time of an update.
-/
def configured : CatalogSourceConfig where
  name := .text "c"
  ns := .text "n"
  labels := [(.text "owner", .text "s"), (.text "tier", .text "")]
  spec := { targetNamespace := .text "t", packages := .text "p,q" }
  phase := {
    name := .text "Configuring"
    message := .text "ready"
    lastTransition := some ⟨⟨2024, 2, 29⟩, 43200250000, some 0⟩ }
  packages := [{ packageId := .text "p", source := .text "s" }]

/-- Every field of the catalog source config holds a value of its declared type. -/
theorem declared_configured : Declared (.catalogSourceConfig configured) := by
  refine ⟨⟨⟨_, rfl⟩, ⟨_, rfl⟩, ⟨?_, by decide⟩, ⟨⟨_, rfl⟩, ⟨_, rfl⟩, ?_, nofun⟩⟩,
    ⟨⟨_, rfl⟩, ⟨_, rfl⟩, ⟨_, rfl⟩, ⟨_, rfl⟩, ⟨_, rfl⟩⟩, ?_⟩
  · simp [configured, Written]
  · rintro t ⟨⟩
    exact ⟨rfl, by decide, by decide⟩
  · simp only [configured, List.mem_singleton, forall_eq]
    exact ⟨⟨_, rfl⟩, ⟨_, rfl⟩⟩

/-- A catalog source config is read as it was written, with the time of its phase. -/
theorem reads_back_fields_configured :
    Declared (.catalogSourceConfig configured) ∧
      Fields.moment configured.phase.lastTransition = .text "2024-02-29T12:00:00.250000+00:00" ∧
      Manifest.ofFields? "CatalogSourceConfig" (CatalogSourceConfig.fields configured) =
        some (.ok (.catalogSourceConfig configured)) :=
  ⟨declared_configured, by decide +kernel,
    reads_back_fields (.catalogSourceConfig configured) declared_configured⟩

end Proofs.Manifest

end CatalogOperator
