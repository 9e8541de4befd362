import CatalogOperator.Proofs.Manifest.Document
import CatalogOperator.Proofs.Reconcile.Call

/-!
# `CatalogOperator.Proofs.Reconcile.Validation`: the first reconcile of a new resource

A new resource is validated by its first reconcile, which never sleeps. It is scheduled for
configuring or fails with what is wrong with it, unless the validation itself breaks off.

* `Decides`: whether a reconcile does not fail and stores the phase that the validity calls for.
* `decides_iff`: it does exactly if the validation finds a problem in what is invalid and in nothing
  else. `not_decides_of_error`: it does not if the validation breaks off.
* `decides_document_iff`: the documents of the two managed kinds for which it does. It does not for
  a catalog source config that has a target namespace and whose packages are no text, and for an
  operator source that has an endpoint and whose registry type is null.
-/

set_option autoImplicit false

namespace CatalogOperator.Proofs.Reconcile

open CatalogOperator.Proofs.Manifest (SourceValid CatalogValid sourceValid_iff catalogValid_iff)

section

variable {δ Spec Packages : Type} [ManagedKind Spec Packages] {s : Shared δ}
  {d : Dispatcher (Shared δ) (Managed Spec Packages)} {deleted : DeletionHook δ}
  {r : Managed Spec Packages} {problem? : Managed Spec Packages → Except Fault (Option String)}

/-- Whether a new resource stands in a store that fails no call. What is stored has a key that can
be looked up. -/
structure IsNew (r : Managed Spec Packages) (s : Shared δ) : Prop where
  clear : s.cluster.store.outages = []
  usable : r.key.fault? = none
  there : objectAt r.key s = some r.toManifest
  initial : r.phase.name = .text Phase.initial.text

/-- Whether a reconcile ends without a fault and stores the phase that the validity of the resource
calls for: a valid one is scheduled for configuring, an invalid one fails with a message. -/
def Decides (K : ObjectKey) (valid : Prop) (Spec : Type) {Packages : Type}
    [ManagedKind Spec Packages] (run : Run (Shared δ) (Except Fault Bool)) : Prop :=
  ∃ t b, run = .finished t (.ok b) ∧ ∃ r' : Managed Spec Packages,
    objectAt K t = some r'.toManifest ∧
      (valid ∧ r'.phase.name = .text Phase.configuring.text ∧
          r'.phase.message = .text scheduledMessage ∨
        ¬ valid ∧ r'.phase.name = .text Phase.failed.text ∧
          ∃ m, m ≠ "" ∧ r'.phase.message = .text m)

/-- The transition of a new resource that has been validated. -/
def decision (problem : Option String) : Transition :=
  match problem with
  | some m => .into .failed m
  | none => .into .configuring scheduledMessage

/-- A new resource is dispatched to its validation. -/
theorem dispatch_initial (hd : d.table.find? Phase.initial.text = some (.initial problem?))
    (hlimit : d.limitFault? = none) (hp : r.phase.name = .text Phase.initial.text) (trace : Trace)
    (s : Shared δ) :
    d.dispatch trace r s = .finished s (match problem? r with
      | .error f => d.conclude r r (.error f) false
      | .ok problem => .ok { resource := r, next := some (decision problem) }) := by
  have hrec : d.reconcilerFor r = .ok (.initial problem?) := by
    unfold Dispatcher.reconcilerFor
    rw [hp]
    dsimp only
    rw [hd]
  have hcheck : (Reconciler.initial (σ := Shared δ) problem?).checkPhase r = .ok () := by
    unfold Reconciler.checkPhase
    rw [hp]
    exact if_pos (beq_self_eq_true _)
  unfold Dispatcher.dispatch
  rw [hrec]
  dsimp only
  unfold Dispatcher.invoke
  rw [hcheck, hlimit]
  -- The validation does not sleep, so no deadline can pass.
  show Run.finished s (d.conclude r r ((problem? r).map _) false) = _
  cases problem? r with
  | error f => rfl
  | ok problem => cases problem <;> rfl

variable [ManagedContent Spec]

/-- The first reconcile of a resource stores what its validation decides. -/
theorem reconcile_initial (deleted : DeletionHook δ)
    (hd : d.table.find? Phase.initial.text = some (.initial problem?))
    (hlimit : d.limitFault? = none) (hnew : IsNew r s) {problem : Option String}
    (hr : problem? r = .ok problem) :
    ∃ (t : Shared δ) (r' : Managed Spec Packages),
      (reconcile d deleted r.key).run s = .finished t (.ok false) ∧
        objectAt r.key t = some r'.toManifest ∧
        r'.phase.name = .text (decision problem).name ∧
        r'.phase.message = .text (decision problem).message := by
  let o : Outcome (Managed Spec Packages) := { resource := r, next := some (decision problem) }
  obtain ⟨t, hfin⟩ := finish_of_clear (r := r) (o := o) hnew.clear hnew.usable hnew.there
  obtain ⟨r', hat, hname, hmsg⟩ := finish_stores hnew.there rfl rfl hfin
  refine ⟨t, r', ?_, hat, hname, hmsg⟩
  rw [reconcile_run_of_reads (reads_of_clear hnew.clear hnew.usable hnew.there),
    dispatch_initial hd hlimit hnew.initial, hr]
  exact hfin

/-- The first reconcile decides as the validity calls for exactly if the validation finds a problem
in what is invalid and in nothing else. -/
theorem decides_iff (hd : d.table.find? Phase.initial.text = some (.initial problem?))
    (hlimit : d.limitFault? = none) (hp : Diagnoses problem?) (hnew : IsNew r s)
    {problem : Option String} (hr : problem? r = .ok problem) (valid : Prop) :
    Decides r.key valid Spec ((reconcile d deleted r.key).run s) ↔ (valid ↔ problem = none) := by
  obtain ⟨t, r', hrun, hat, hname, hmsg⟩ := reconcile_initial deleted hd hlimit hnew hr
  rw [hrun]
  constructor
  · rintro ⟨t', b, heq, r'', hat', hcases⟩
    cases heq
    have heq := stored_unique hat hat'
    subst heq
    -- The phase that was stored tells whether a problem was found.
    rcases hcases with ⟨hv, hc, -⟩ | ⟨hv, hf, -⟩
    · refine iff_of_true hv ?_
      cases problem with
      | none => rfl
      | some m =>
        have hfailed : r'.phase.name = .text Phase.failed.text := hname
        rw [hc] at hfailed
        exact absurd hfailed (by decide)
    · refine iff_of_false hv ?_
      rintro rfl
      exact absurd (hname.symm.trans hf) (by decide)
  · intro h
    refine ⟨t, false, rfl, r', hat, ?_⟩
    cases problem with
    | none => exact .inl ⟨h.2 rfl, hname, hmsg⟩
    | some m =>
      have hv : ¬ valid := fun hv => Option.some_ne_none m (h.1 hv)
      exact .inr ⟨hv, hname, m, hp.message r m hr, hmsg⟩

/-- A validation that breaks off decides nothing. -/
theorem not_decides_of_error (hd : d.table.find? Phase.initial.text = some (.initial problem?))
    (hlimit : d.limitFault? = none) (hp : Diagnoses problem?) (hnew : IsNew r s) {f : Fault}
    (hr : problem? r = .error f) (valid : Prop) :
    ¬ Decides r.key valid Spec ((reconcile d deleted r.key).run s) := by
  rintro ⟨t, b, hrun, -⟩
  rw [reconcile_run_of_reads (reads_of_clear hnew.clear hnew.usable hnew.there),
    dispatch_initial hd hlimit hnew.initial, hr] at hrun
  -- Only a store failure would be put into the phase, and it is none.
  rcases conclude_error d r r false f with ⟨g, hg⟩ | ⟨hf, -⟩
  · dsimp only at hrun
    rw [hg] at hrun
    cases hrun
  · rw [hp.fault r f hr] at hf
    cases hf

end

/-! ### The documents of the two kinds -/

section

variable {δ : Type} {s : Shared δ} {doc : Value}

/-- An operator source has no problem if its registry is of the supported type and it has an
endpoint. -/
theorem source_problem?_eq_none_iff (r : OperatorSource) :
    r.problem? = none ↔ r.spec.registryType = .text OperatorSource.supportedRegistry ∧
      r.spec.endpoint.isTrue = true := by
  unfold OperatorSource.problem?
  by_cases htype : r.spec.registryType = .text OperatorSource.supportedRegistry
  · simp [htype]
  · simp [htype]

/-- The documents of operator sources whose first reconcile decides as their validity calls for. -/
theorem decides_source_iff (D : Deployer δ) (limit : Option Deadline) (deleted : DeletionHook δ)
    {r : OperatorSource} (hdoc : Document.operatorSource doc = .ok r) (hnew : IsNew r s) :
    Decides r.key (SourceValid doc) SourceSpec
        ((reconcile (Source.dispatcher D limit) deleted r.key).run s) ↔
      ¬ (r.spec.registryType = .null ∧ r.spec.endpoint.isTrue = true) := by
  rw [decides_iff (d := Source.dispatcher D limit) rfl (limitFault?_eq_none rfl) diagnoses_source
    hnew rfl, sourceValid_iff hdoc, source_problem?_eq_none_iff]
  -- A null stands for the default type in the document, but not for the validation.
  by_cases hnull : r.spec.registryType = .null
  · simp [hnull]
  · simp [hnull]

/-- A catalog source config without a target namespace has a problem. With one, the packages are
listed or not if they are a text, and break the validation off if they are none. -/
theorem catalog_problem?_cases (r : CatalogSourceConfig) :
    (r.spec.targetNamespace.isTrue = false ∧ ∃ m, r.problem? = .ok (some m)) ∨
      (r.spec.targetNamespace.isTrue = true ∧ ∃ text problem, r.spec.packages = .text text ∧
        r.problem? = .ok problem ∧ (problem = none ↔ PackageList.ids text.toList ≠ [])) ∨
      (r.spec.targetNamespace.isTrue = true ∧ (∀ text, r.spec.packages ≠ .text text) ∧
        ∃ f, r.problem? = .error f) := by
  unfold CatalogSourceConfig.problem?
  cases htarget : r.spec.targetNamespace.isTrue with
  | false => exact .inl ⟨rfl, _, rfl⟩
  | true =>
    refine .inr ?_
    rw [if_neg (by simp)]
    -- Only a text can be taken apart into packages.
    cases hpackages : r.spec.packages with
    | text text =>
      refine .inl ⟨rfl, text, ?_⟩
      dsimp only [PackageList.idsOf?]
      cases PackageList.ids text.toList with
      | nil => exact ⟨_, rfl, rfl, by simp⟩
      | cons id rest => exact ⟨_, rfl, rfl, by simp⟩
    | _ => exact .inr ⟨rfl, by simp, _, rfl⟩

/-- The documents of catalog source configs whose first reconcile decides as their validity calls
for. -/
theorem decides_catalog_iff (D : Deployer δ) (limit : Option Deadline) (deleted : DeletionHook δ)
    {r : CatalogSourceConfig} (hdoc : Document.catalogSourceConfig doc = .ok r)
    (hnew : IsNew r s) :
    Decides r.key (CatalogValid doc) CatalogSpec
        ((reconcile (Catalog.dispatcher D limit) deleted r.key).run s) ↔
      ¬ (r.spec.targetNamespace.isTrue = true ∧ ∀ text, r.spec.packages ≠ .text text) := by
  have hd : (Catalog.dispatcher D limit).table.find? Phase.initial.text =
      some (.initial CatalogSourceConfig.problem?) := rfl
  have hlimit : (Catalog.dispatcher D limit).limitFault? = none := limitFault?_eq_none rfl
  rcases catalog_problem?_cases r with
    ⟨htarget, m, hr⟩ | ⟨htarget, text, problem, htext, hr, hids⟩ | ⟨htarget, hno, f, hr⟩
  -- Without a target namespace the packages do not matter.
  · rw [decides_iff hd hlimit diagnoses_catalog hnew hr, catalogValid_iff hdoc]
    simp [htarget]
  · rw [decides_iff hd hlimit diagnoses_catalog hnew hr, catalogValid_iff hdoc, hids]
    simp [htarget, htext]
  · exact iff_of_false (not_decides_of_error hd hlimit diagnoses_catalog hnew hr _)
      fun h => h ⟨htarget, hno⟩

/-- The documents that are accepted and whose first reconcile decides as their validity calls for,
with any deployer and deadline: all but those of operator sources that have an endpoint and a null
for the type of the registry, and those of catalog source configs that have a target namespace and
something else than a text for the packages. -/
theorem decides_document_iff (D : Deployer δ) (limit : Option Deadline) (deleted : DeletionHook δ)
    (doc : Value) (s : Shared δ) :
    (∀ r : OperatorSource, Document.operatorSource doc = .ok r → IsNew r s →
      (Decides r.key (SourceValid doc) SourceSpec
          ((reconcile (Source.dispatcher D limit) deleted r.key).run s) ↔
        ¬ (r.spec.registryType = .null ∧ r.spec.endpoint.isTrue = true))) ∧
    ∀ r : CatalogSourceConfig, Document.catalogSourceConfig doc = .ok r → IsNew r s →
      (Decides r.key (CatalogValid doc) CatalogSpec
          ((reconcile (Catalog.dispatcher D limit) deleted r.key).run s) ↔
        ¬ (r.spec.targetNamespace.isTrue = true ∧ ∀ text, r.spec.packages ≠ .text text)) :=
  ⟨fun _ hdoc hnew => decides_source_iff D limit deleted hdoc hnew,
    fun _ hdoc hnew => decides_catalog_iff D limit deleted hdoc hnew⟩

end

/-- A document of a managed kind with the given specification. -/
def document (kind : String) (spec : List (Value × Value)) : Value :=
  .map [
    (.text "apiVersion", .text "operators.coreos.com/v1"),
    (.text "kind", .text kind),
    (.text "metadata", .map [(.text "name", .text "a"), (.text "namespace", .text "m")]),
    (.text "spec", .map spec)]

/-- The document of a catalog source config with a target namespace and the given packages. -/
def catalogDocument (packages : Value) : Value :=
  document Kind.catalogSourceConfig
    [(.text "targetNamespace", .text "t"), (.text "packages", packages)]

/-- What is read from it. -/
def catalogWith (packages : Value) : CatalogSourceConfig where
  name := .text "a"
  ns := .text "m"
  spec := { targetNamespace := .text "t", packages }
  packages := []

/-- The document of a catalog source config is accepted. -/
theorem read_catalogDocument (packages : Value) :
    Document.catalogSourceConfig (catalogDocument packages) = .ok (catalogWith packages) :=
  rfl

/-- The document of an operator source with an endpoint and a registry of the given type. -/
def sourceDocument (registryType : Value) : Value :=
  document Kind.operatorSource [(.text "endpoint", .text "e"), (.text "type", registryType)]

/-- What is read from it. -/
def sourceWith (registryType : Value) : OperatorSource where
  name := .text "a"
  ns := .text "m"
  spec := { registryType, endpoint := .text "e" }
  packages := .text ""

/-- The document of an operator source is accepted. -/
theorem read_sourceDocument (registryType : Value) :
    Document.operatorSource (sourceDocument registryType) = .ok (sourceWith registryType) :=
  rfl

/-- What was read from the document is a new resource. -/
theorem isNew_catalogWith (packages : Value) :
    IsNew (catalogWith packages) (holding (catalogWith packages) ()) :=
  ⟨rfl, rfl, objectAt_holding _ (), rfl⟩

/-- The operator source that was read is new as well. -/
theorem isNew_sourceWith (registryType : Value) :
    IsNew (sourceWith registryType) (holding (sourceWith registryType) ()) :=
  ⟨rfl, rfl, objectAt_holding _ (), rfl⟩

/-- An operator source of the supported type is decided, and so is a catalog source config whose
packages are a text. -/
theorem decides_document_listed :
    let supported := Value.text OperatorSource.supportedRegistry
    let listed := Value.text "p"
    Decides (sourceWith supported).key (SourceValid (sourceDocument supported)) SourceSpec
        ((reconcile (Source.dispatcher (idle : Deployer Unit) none) Controller.forgetSource
          (sourceWith supported).key).run (holding (sourceWith supported) ())) ∧
      Decides (catalogWith listed).key (CatalogValid (catalogDocument listed)) CatalogSpec
        ((reconcile (Catalog.dispatcher (idle : Deployer Unit) none) Controller.forgetCopy
          (catalogWith listed).key).run (holding (catalogWith listed) ())) := by
  intro supported listed
  have source := (decides_document_iff idle none Controller.forgetSource
    (sourceDocument supported) (holding (sourceWith supported) ())).1
    _ (read_sourceDocument _) (isNew_sourceWith _)
  have catalog := (decides_document_iff idle none Controller.forgetCopy
    (catalogDocument listed) (holding (catalogWith listed) ())).2
    _ (read_catalogDocument _) (isNew_catalogWith _)
  refine ⟨source.2 fun h => ?_, catalog.2 fun h => h.2 "p" rfl⟩
  exact absurd h.1 (by decide)

/-- Null for the packages or for the type is not taken for an unset field. The first breaks the
validation off, the second makes a valid operator source fail. -/
theorem not_decides_null :
    (¬ ∀ (doc : Value) (r : CatalogSourceConfig) (s : Shared Unit),
      Document.catalogSourceConfig doc = .ok r → IsNew r s →
        Decides r.key (CatalogValid doc) CatalogSpec
          ((reconcile (Catalog.dispatcher idle none) Controller.forgetCopy r.key).run s)) ∧
    ¬ ∀ (doc : Value) (r : OperatorSource) (s : Shared Unit),
      Document.operatorSource doc = .ok r → IsNew r s →
        Decides r.key (SourceValid doc) SourceSpec
          ((reconcile (Source.dispatcher idle none) Controller.forgetSource r.key).run s) := by
  constructor
  · intro h
    have hdecides := h _ _ _ (read_catalogDocument .null) (isNew_catalogWith .null)
    rw [decides_catalog_iff idle none _ (read_catalogDocument .null) (isNew_catalogWith .null)]
      at hdecides
    exact hdecides ⟨rfl, fun _ => nofun⟩
  · intro h
    have hdecides := h _ _ _ (read_sourceDocument .null) (isNew_sourceWith .null)
    rw [decides_source_iff idle none _ (read_sourceDocument .null) (isNew_sourceWith .null)]
      at hdecides
    exact hdecides ⟨rfl, rfl⟩

end CatalogOperator.Proofs.Reconcile
