import CatalogOperator.Proofs.Manifest.Document

/-!
# `CatalogOperator.Proofs.Manifest.Acceptance`: the documents that are read

A document is read part by part, and each part has its own way to put up with what is missing. Given
that the parts have the types that are expected of them, which documents are read can be said in
terms of the document alone, and so can the identity and the phase of the object that results.

* `Typed`: the parts that are looked at have the expected types, if they are there at all.
* `Accepted`: nothing is missing that an object of its kind must have.
* `SucceedsIf`: a reading that succeeds exactly if a condition holds.
* `reads_document`: a typed document is read exactly if it is accepted.
-/

set_option autoImplicit false

namespace CatalogOperator.Proofs.Manifest

/-! ### Readings -/

/-- A reading that succeeds exactly if a condition holds. Its result then is as described. -/
def SucceedsIf {α : Type} (x : Except Fault α) (accepted : Prop) (result : α → Prop) : Prop :=
  (accepted → ∃ a, x = .ok a) ∧ ∀ a, x = .ok a → accepted ∧ result a

namespace SucceedsIf

variable {α β : Type} {x : Except Fault α} {f : α → Except Fault β} {accepted continued : Prop}
  {result : α → Prop} {outcome : β → Prop}

/-- A fault is right where nothing is to be accepted. -/
theorem refused {e : Fault} (h : ¬accepted) : SucceedsIf (.error e) accepted result :=
  ⟨fun ha => absurd ha h, nofun⟩

/-- A result is right where everything is to be accepted. -/
theorem done {a : α} (h : result a) : SucceedsIf (.ok a) True result :=
  ⟨fun _ => ⟨a, rfl⟩, fun _ hb => by cases hb; exact ⟨trivial, h⟩⟩

/-- A step whose result is known. -/
theorem step {x : Except Fault α} {a : α} (hx : x = .ok a)
    (hf : SucceedsIf (f a) accepted outcome) : SucceedsIf (x >>= f) accepted outcome := by
  rw [hx]
  exact hf

/-- A condition may be replaced by an equivalent one. -/
theorem of_iff {other : Prop} (hx : SucceedsIf x accepted result) (h : other ↔ accepted) :
    SucceedsIf x other result :=
  ⟨fun ho => hx.1 (h.1 ho), fun a ha => ⟨h.2 (hx.2 a ha).1, (hx.2 a ha).2⟩⟩

/-- Two readings in a row succeed if both conditions hold. -/
theorem bind (hx : SucceedsIf x accepted result)
    (hf : ∀ a, result a → SucceedsIf (f a) continued outcome) :
    SucceedsIf (x >>= f) (accepted ∧ continued) outcome := by
  constructor
  · rintro ⟨ha, hc⟩
    obtain ⟨a, rfl⟩ := hx.1 ha
    exact (hf a (hx.2 a rfl).2).1 hc
  · intro b hb
    obtain ⟨a, hxa, hfa⟩ := bind_eq_ok hb
    obtain ⟨ha, hr⟩ := hx.2 a hxa
    obtain ⟨hc, ho⟩ := (hf a hr).2 b hfa
    exact ⟨⟨ha, hc⟩, ho⟩

/-- What always succeeds adds no condition. -/
theorem andThen (hx : SucceedsIf x accepted result)
    (hf : ∀ a, result a → ∃ b, f a = .ok b ∧ outcome b) :
    SucceedsIf (x >>= f) accepted outcome := by
  have hbound : SucceedsIf (x >>= f) (accepted ∧ True) outcome := by
    refine hx.bind fun a hr => ?_
    obtain ⟨b, hb, ho⟩ := hf a hr
    rw [hb]
    exact done ho
  exact hbound.of_iff (and_true accepted).to_iff.symm

/-- A value that has to be present before the reading goes on. -/
theorem guarded {present : Bool} {e : Fault} (hx : present = true → SucceedsIf x accepted result) :
    SucceedsIf (if !present then .error e else x) (present = true ∧ accepted) result := by
  cases present with
  | false => exact refused fun h => absurd h.1 (by decide)
  | true => exact (hx rfl).of_iff (by simp)

/-- A choice between two readings under one condition. -/
theorem choice {p : Prop} [Decidable p] {y : Except Fault α} (hx : p → SucceedsIf x accepted result)
    (hy : ¬p → SucceedsIf y accepted result) :
    SucceedsIf (if p then x else y) accepted result := by
  by_cases hp : p
  · rw [if_pos hp]
    exact hx hp
  · rw [if_neg hp]
    exact hy hp

/-- A bare check. -/
theorem decided {fit : Bool} {e : Fault} :
    SucceedsIf (if fit then (pure () : Except Fault Unit) else .error e) (fit = true)
      fun _ => True := by
  cases fit with
  | false => exact refused (by decide)
  | true => exact (done trivial).of_iff (by simp)

/-- A reading whose result is wrapped. -/
theorem map {g : α → β} (hx : SucceedsIf x accepted result)
    (hg : ∀ a, accepted → result a → outcome (g a)) : SucceedsIf (x.map g) accepted outcome := by
  cases x with
  | error e => exact ⟨fun ha => absurd (hx.1 ha) (by simp), nofun⟩
  | ok a =>
    obtain ⟨ha, hr⟩ := hx.2 a rfl
    exact (done (hg a ha hr)).of_iff (iff_true_intro ha)

/-- A list is read if each of its items is. -/
theorem mapM {f : Value → Except Fault β} {fit : Value → Prop} {vs : List Value}
    (h : ∀ v ∈ vs, SucceedsIf (f v) (fit v) fun _ => True) :
    SucceedsIf (vs.mapM f) (∀ v ∈ vs, fit v) fun _ => True := by
  induction vs with
  | nil => exact (done trivial).of_iff (by simp)
  | cons v vs ih =>
    obtain ⟨hv, hvs⟩ := List.forall_mem_cons.1 h
    rw [List.mapM_cons]
    refine (hv.bind fun _ _ => (ih hvs).andThen fun ys _ => ⟨_, rfl, trivial⟩).of_iff ?_
    exact List.forall_mem_cons

end SucceedsIf

/-! ### Parts of a document -/

/-- What a value holds under a key: null if there is no such entry. -/
def entry (v : Value) (key : String) : Value :=
  (given v key).getD .null

/-- What a document holds under a path of keys. -/
def under (doc : Value) (path : List String) : Value :=
  path.foldl entry doc

/-- The items of a list. Nothing else has any. -/
def elements : Value → List Value
  | .list vs => vs
  | _ => []

/-- A text, if there is anything. -/
def IsText (v : Value) : Prop :=
  v = .null ∨ ∃ s, v = .text s

/-- A mapping, if there is anything. -/
def IsMapping (v : Value) : Prop :=
  v = .null ∨ ∃ es, v = .map es

/-- A list of mappings, if there is anything. -/
def IsListing (v : Value) : Prop :=
  v = .null ∨ ∃ vs, v = .list vs ∧ ∀ w ∈ vs, ∃ es, w = .map es

/-- A text that is not empty. -/
def NonEmpty (v : Value) : Prop :=
  ∃ s, v = .text s ∧ s ≠ ""

/-- A text that begins with a given one. -/
def BeginsWith (v : Value) (start : String) : Prop :=
  ∃ s, v = .text s ∧ start.toList <+: s.toList

/-- Whether a value has an entry under a key, be it null. -/
def HasKey (v : Value) (key : String) : Prop :=
  ∃ w, Document.find v key = .ok (some w)

/-- The entry of a mapping is what it holds under the key, or null. -/
theorem entry_map (es : List (Value × Value)) (key : String) :
    entry (.map es) key = (Value.get? es key).getD .null := by
  have hfind : Document.find (.map es) key = .ok (Value.get? es key) := rfl
  unfold entry given
  rw [hfind]
  cases Value.get? es key with
  | none => rfl
  | some v => cases v <;> rfl

/-- A mapping can be asked for any entry. -/
theorem get_map (es : List (Value × Value)) (key : String) :
    Document.get (.map es) key = .ok (entry (.map es) key) := by
  rw [entry_map]
  rfl

/-- A text counts as present unless it is empty. -/
theorem isTrue_iff_nonEmpty {v : Value} (h : IsText v) : v.isTrue = true ↔ NonEmpty v := by
  rcases h with rfl | ⟨s, rfl⟩
  · simp [Value.isTrue, NonEmpty]
  · simp [Value.isTrue, NonEmpty]

/-- A section that is missing reads as an empty one. A mapping that has the entries of a part thus
leads to one that has the entries of the section of that part. -/
theorem section?_map {es : List (Value × Value)} {v : Value} {key : String}
    (hes : entry (.map es) = entry v) (h : IsMapping (entry v key)) :
    ∃ fs, Document.section? (.map es) key = .ok (.map fs) ∧
      entry (.map fs) = entry (entry v key) := by
  rw [← hes] at h ⊢
  unfold Document.section?
  rw [get_map]
  rcases h with h | ⟨fs, h⟩
  · refine ⟨[], by rw [h]; rfl, ?_⟩
    rw [h]
    rfl
  · refine ⟨fs, ?_, by rw [h]⟩
    rw [h]
    cases fs <;> rfl

/-- A list that is missing reads as an empty one. -/
theorem items_map {es : List (Value × Value)} {v : Value} {key : String}
    (hes : entry (.map es) = entry v) (h : IsListing (entry v key)) :
    Document.items (.map es) key = .ok (elements (entry v key)) := by
  rw [← hes] at h ⊢
  unfold Document.items
  rw [get_map]
  rcases h with h | ⟨vs, h, -⟩
  · rw [h]
    rfl
  · rw [h]
    cases vs <;> rfl

/-- The elements of a listing are mappings. -/
theorem exists_map_of_mem_elements {v w : Value} (h : IsListing v) (hw : w ∈ elements v) :
    ∃ es, w = .map es := by
  rcases h with rfl | ⟨vs, rfl, hvs⟩
  · cases hw
  · exact hvs w hw

/-! ### What is expected of a document -/

/-- The parts of a managed resource that lead to its phase are mappings. -/
structure TypedManaged (doc : Value) : Prop where
  spec : IsMapping (under doc ["spec"])
  status : IsMapping (under doc ["status"])
  current : IsMapping (under doc ["status", "currentPhase"])
  phase : IsMapping (under doc ["status", "currentPhase", "phase"])

/-- The containers of a document. -/
def containersIn (doc : Value) : List Value :=
  elements (under doc ["spec", "template", "spec", "containers"])

/-- The parts of a deployment that lead to the names of its environment variables have the expected
types. -/
structure TypedWorkload (doc : Value) : Prop where
  spec : IsMapping (under doc ["spec"])
  template : IsMapping (under doc ["spec", "template"])
  pod : IsMapping (under doc ["spec", "template", "spec"])
  containers : IsListing (under doc ["spec", "template", "spec", "containers"])
  env : ∀ c ∈ containersIn doc, IsListing (entry c "env")
  names : ∀ c ∈ containersIn doc, ∀ v ∈ elements (entry c "env"), IsText (entry v "name")

/-- A document of one of the managed kinds. -/
def OfManagedKind (doc : Value) : Prop :=
  entry doc "kind" = .text Kind.operatorSource ∨ entry doc "kind" = .text Kind.catalogSourceConfig
  deriving Decidable

/-- A document of a kind whose objects have no namespace. -/
def OfClusterKind (doc : Value) : Prop :=
  entry doc "kind" = .text Kind.proxy ∨ entry doc "kind" = .text Kind.operatorHub
  deriving Decidable

/-- A mapping in which each part that is looked at has the type that is expected of it, if it is
there at all. Parts that are not looked at for the kind of the document may be anything. -/
structure Typed (doc : Value) : Prop where
  mapping : ∃ es, doc = .map es
  kind : IsText (entry doc "kind")
  version : IsText (entry doc "apiVersion")
  metadata : IsMapping (under doc ["metadata"])
  name : IsText (under doc ["metadata", "name"])
  ns : IsText (under doc ["metadata", "namespace"])
  labels : IsMapping (under doc ["metadata", "labels"])
  managed : OfManagedKind doc → TypedManaged doc
  workload : entry doc "kind" = .text Kind.deployment → TypedWorkload doc
  proxy : entry doc "kind" = .text Kind.proxy → IsMapping (under doc ["status"])
  hub : entry doc "kind" = .text Kind.operatorHub →
    IsMapping (under doc ["spec"]) ∧ IsListing (under doc ["spec", "sources"])

/-- The API domain that the version of a document must name, if its kind is known by name. -/
def domainOf? (doc : Value) : Option String :=
  if OfManagedKind doc then some Document.marketplaceDomain
  else if entry doc "kind" = .text Kind.deployment then some Document.appsDomain
  else if OfClusterKind doc then some Document.configDomain
  else none

/-- The document has all that an object of its kind must have. -/
structure Accepted (doc : Value) : Prop where
  kind : NonEmpty (entry doc "kind")
  version : NonEmpty (entry doc "apiVersion")
  domain : ∀ d, domainOf? doc = some d → BeginsWith (entry doc "apiVersion") d
  name : NonEmpty (under doc ["metadata", "name"])
  ns : OfManagedKind doc ∨ entry doc "kind" = .text Kind.deployment →
    NonEmpty (under doc ["metadata", "namespace"])
  env : entry doc "kind" = .text Kind.deployment →
    ∀ c ∈ containersIn doc, ∀ v ∈ elements (entry c "env"), NonEmpty (entry v "name")
  sources : entry doc "kind" = .text Kind.operatorHub →
    ∀ s ∈ elements (under doc ["spec", "sources"]), HasKey s "name"

/-- The identity that a document gives its object. Objects of the cluster have no namespace,
whatever the metadata says. -/
def keyIn (doc : Value) : ObjectKey :=
  ⟨entry doc "kind", if OfClusterKind doc then .null else under doc ["metadata", "namespace"],
    under doc ["metadata", "name"]⟩

/-- The phase that a document gives its object. A name that is missing or empty is `Initial`. -/
def phaseIn (doc : Value) : PhaseRecord where
  name := (under doc ["status", "currentPhase", "phase", "name"]).orElse (.text Phase.initial.text)
  message := (under doc ["status", "currentPhase", "phase", "message"]).orElse (.text "")

/-- The phase of a managed resource. Nothing else has one. -/
def phaseOf? : Manifest → Option PhaseRecord
  | .operatorSource r => some r.phase
  | .catalogSourceConfig r => some r.phase
  | _ => none

/-- The object has the identity that the document gives it and, if it is a managed resource, the
phase. -/
structure Depicts (doc : Value) (m : Manifest) : Prop where
  key : m.key? = .ok (keyIn doc)
  phase : OfManagedKind doc → phaseOf? m = some (phaseIn doc)

/-! ### Reading the parts -/

/-- A check of the version succeeds if the version is a text that begins with the domain. -/
theorem checkVersion_succeeds {es : List (Value × Value)} (domain : String)
    (h : IsText (entry (.map es) "apiVersion")) :
    SucceedsIf (Document.checkVersion (.map es) domain)
      (NonEmpty (entry (.map es) "apiVersion") ∧ BeginsWith (entry (.map es) "apiVersion") domain)
      fun _ => True := by
  unfold Document.checkVersion
  rw [← isTrue_iff_nonEmpty h]
  refine SucceedsIf.step (get_map es "apiVersion") (SucceedsIf.guarded fun hpresent => ?_)
  obtain ⟨s, hs, -⟩ := (isTrue_iff_nonEmpty h).1 hpresent
  have hbegins : BeginsWith (.text s) domain ↔ domain.toList.isPrefixOf s.toList = true := by
    simp [BeginsWith]
  rw [hs]
  exact SucceedsIf.decided.of_iff hbegins

/-- Labels are read as they are. Labels that are missing read as none. -/
theorem labels_map {es : List (Value × Value)} (h : IsMapping (entry (.map es) "labels")) :
    ∃ ls, Document.labels (.map es) = .ok ls := by
  obtain ⟨fs, hfs, -⟩ := section?_map rfl h
  refine ⟨fs, ?_⟩
  unfold Document.labels
  rw [hfs]
  rfl

/-- Metadata are read if they hold a name and, of namespaced objects, a namespace. -/
theorem metadata_succeeds {es : List (Value × Value)} (typeName : String) (namespaced : Bool)
    (h : Typed (.map es)) :
    SucceedsIf (Document.metadata typeName (.map es) namespaced)
      (NonEmpty (entry (entry (.map es) "metadata") "name") ∧
        (namespaced = true → NonEmpty (entry (entry (.map es) "metadata") "namespace")))
      fun m => m.name = entry (entry (.map es) "metadata") "name" ∧
        m.ns = entry (entry (.map es) "metadata") "namespace" := by
  have hname : IsText (entry (entry (.map es) "metadata") "name") := h.name
  have hns : IsText (entry (entry (.map es) "metadata") "namespace") := h.ns
  have hlabels : IsMapping (entry (entry (.map es) "metadata") "labels") := h.labels
  -- A name is only found in metadata that are present.
  have hpresent : NonEmpty (entry (entry (.map es) "metadata") "name") →
      (entry (.map es) "metadata").isTrue = true := by
    rintro ⟨s, hs, -⟩
    rcases h.metadata with hm | ⟨_ | ⟨f, fs⟩, hm⟩
    · rw [show entry (.map es) "metadata" = .null from hm] at hs
      cases hs
    · rw [show entry (.map es) "metadata" = .map [] from hm] at hs
      cases hs
    · rw [show entry (.map es) "metadata" = .map (f :: fs) from hm]
      rfl
  unfold Document.metadata
  refine (SucceedsIf.step (get_map es "metadata") (SucceedsIf.guarded fun hthere => ?_)).of_iff
    (and_iff_right_of_imp fun h => hpresent h.1).symm
  rcases h.metadata with hm | ⟨fs, hm⟩
  · rw [show entry (.map es) "metadata" = .null from hm] at hthere
    cases hthere
  rw [show entry (.map es) "metadata" = .map fs from hm] at hname hns hlabels ⊢
  rw [← isTrue_iff_nonEmpty hname, ← isTrue_iff_nonEmpty hns]
  refine SucceedsIf.step (get_map fs "name") (SucceedsIf.guarded fun _ => ?_)
  refine SucceedsIf.step (get_map fs "namespace") ?_
  obtain ⟨ls, hls⟩ := labels_map hlabels
  have hrest : SucceedsIf
      (Document.labels (.map fs) >>= fun labels => pure
        (⟨entry (.map fs) "name", entry (.map fs) "namespace", labels⟩ : Document.Metadata)) True
      fun m => m.name = entry (.map fs) "name" ∧ m.ns = entry (.map fs) "namespace" :=
    SucceedsIf.step hls (SucceedsIf.done ⟨rfl, rfl⟩)
  cases namespaced with
  | false => exact hrest.of_iff (by simp)
  | true => exact (SucceedsIf.guarded fun _ => hrest).of_iff (by simp)

/-- A phase is always read, from whatever there is of the current phase. -/
theorem phase_map {current : Value} (hcurrent : IsMapping current)
    (hphase : IsMapping (entry current "phase")) :
    Document.phase current = .ok {
      name := (entry (entry current "phase") "name").orElse (.text Phase.initial.text)
      message := (entry (entry current "phase") "message").orElse (.text "") } := by
  rcases hcurrent with rfl | ⟨_ | ⟨f, fs⟩, rfl⟩
  · rfl
  · rfl
  · obtain ⟨gs, hgs, hentry⟩ := section?_map rfl hphase
    rw [← hentry, entry_map, entry_map]
    unfold Document.phase
    rw [hgs]
    rfl

/-- The status of a managed resource holds its phase. -/
theorem status_map {es : List (Value × Value)} (h : TypedManaged (.map es)) :
    ∃ status, Document.section? (.map es) "status" = .ok (.map status) ∧
      Document.phase (entry (.map status) "currentPhase") = .ok (phaseIn (.map es)) := by
  obtain ⟨status, hstatus, hentry⟩ := section?_map rfl h.status
  refine ⟨status, hstatus, ?_⟩
  rw [hentry]
  exact phase_map h.current h.phase

/-- An environment variable must have a name. -/
theorem envVar_succeeds {es : List (Value × Value)} (h : IsText (entry (.map es) "name")) :
    SucceedsIf (Document.envVar (.map es)) (NonEmpty (entry (.map es) "name")) fun _ => True := by
  unfold Document.envVar
  refine (SucceedsIf.step (get_map es "name") (SucceedsIf.guarded fun _ => ?_)).of_iff
    ((isTrue_iff_nonEmpty h).symm.trans (and_true _).to_iff.symm)
  exact SucceedsIf.step (get_map es "value") (SucceedsIf.done trivial)

/-- The variables of a container must have names. -/
theorem container_succeeds {es : List (Value × Value)} (henv : IsListing (entry (.map es) "env"))
    (hnames : ∀ v ∈ elements (entry (.map es) "env"), IsText (entry v "name")) :
    SucceedsIf (Document.container (.map es))
      (∀ v ∈ elements (entry (.map es) "env"), NonEmpty (entry v "name")) fun _ => True := by
  unfold Document.container
  refine SucceedsIf.step rfl (SucceedsIf.step rfl (SucceedsIf.step (items_map rfl henv) ?_))
  refine (SucceedsIf.mapM fun v hv => ?_).andThen fun env _ => ⟨_, rfl, trivial⟩
  obtain ⟨fs, rfl⟩ := exists_map_of_mem_elements henv hv
  exact envVar_succeeds (hnames _ hv)

/-- A default source must have the key of a name. -/
theorem hubSource_succeeds (es : List (Value × Value)) :
    SucceedsIf (Document.hubSource (.map es)) (HasKey (.map es) "name") fun _ => True := by
  simp only [Document.hubSource, HasKey, Document.find, Except.ok.injEq]
  cases Value.get? es "name" with
  | none => exact SucceedsIf.refused (by simp)
  | some w => exact (SucceedsIf.done trivial).of_iff (by simp)

/-! ### Reading the object of each kind -/

section

variable {es : List (Value × Value)}

/-- The document says what version it is of, and names an object. -/
def Named (doc : Value) (domain : String) (namespaced : Bool) : Prop :=
  (NonEmpty (entry doc "apiVersion") ∧ BeginsWith (entry doc "apiVersion") domain) ∧
    NonEmpty (under doc ["metadata", "name"]) ∧
      (namespaced = true → NonEmpty (under doc ["metadata", "namespace"]))

/-- No part after the metadata can refuse a managed resource. -/
theorem operatorSource_succeeds (h : Typed (.map es)) (hm : TypedManaged (.map es)) :
    SucceedsIf (Document.operatorSource (.map es))
      (Named (.map es) Document.marketplaceDomain true)
      fun r => r.name = under (.map es) ["metadata", "name"] ∧
        r.ns = under (.map es) ["metadata", "namespace"] ∧ r.phase = phaseIn (.map es) := by
  unfold Document.operatorSource
  refine (checkVersion_succeeds _ h.version).bind fun _ _ => ?_
  refine (metadata_succeeds _ _ h).andThen fun m ⟨hname, hns⟩ => ?_
  obtain ⟨spec, hspec, -⟩ := section?_map rfl hm.spec
  obtain ⟨status, hstatus, hphase⟩ := status_map hm
  -- All that is left to fail is the phase, which is read off the status.
  rw [hspec, hstatus]
  rw [entry_map] at hphase
  change ∃ b, (Document.phase ((Value.get? status "currentPhase").getD .null) >>= _) = _ ∧ _
  rw [hphase]
  exact ⟨_, rfl, hname, hns, rfl⟩

/-- A catalog source config is read exactly if it is named, with what its document says. -/
theorem catalogSourceConfig_succeeds (h : Typed (.map es)) (hm : TypedManaged (.map es)) :
    SucceedsIf (Document.catalogSourceConfig (.map es))
      (Named (.map es) Document.marketplaceDomain true)
      fun r => r.name = under (.map es) ["metadata", "name"] ∧
        r.ns = under (.map es) ["metadata", "namespace"] ∧ r.phase = phaseIn (.map es) := by
  unfold Document.catalogSourceConfig
  refine (checkVersion_succeeds _ h.version).bind fun _ _ => ?_
  refine (metadata_succeeds _ _ h).andThen fun m ⟨hname, hns⟩ => ?_
  obtain ⟨spec, hspec, -⟩ := section?_map rfl hm.spec
  obtain ⟨status, hstatus, hphase⟩ := status_map hm
  rw [hspec, hstatus]
  rw [entry_map] at hphase
  change ∃ b, (Document.phase ((Value.get? status "currentPhase").getD .null) >>= _) = _ ∧ _
  rw [hphase]
  exact ⟨_, rfl, hname, hns, rfl⟩

/-- The containers lie three sections deep, each of which may be missing. -/
theorem deployment_succeeds (h : Typed (.map es)) (hw : TypedWorkload (.map es)) :
    SucceedsIf (Document.deployment (.map es))
      (Named (.map es) Document.appsDomain true ∧
        ∀ c ∈ containersIn (.map es), ∀ v ∈ elements (entry c "env"), NonEmpty (entry v "name"))
      fun d => d.name = under (.map es) ["metadata", "name"] ∧
        d.ns = under (.map es) ["metadata", "namespace"] := by
  unfold Document.deployment
  refine ((checkVersion_succeeds _ h.version).bind fun _ _ =>
    (metadata_succeeds _ _ h).bind fun m ⟨hname, hns⟩ => ?_).of_iff and_assoc
  obtain ⟨spec, hspec, hspecEntry⟩ := section?_map rfl hw.spec
  obtain ⟨template, htemplate, htemplateEntry⟩ := section?_map hspecEntry hw.template
  obtain ⟨pod, hpod, hpodEntry⟩ := section?_map htemplateEntry hw.pod
  refine SucceedsIf.step hspec (SucceedsIf.step htemplate (SucceedsIf.step hpod
    (SucceedsIf.step (items_map hpodEntry hw.containers) ?_)))
  refine (SucceedsIf.mapM fun c hc => ?_).andThen fun containers _ => ⟨_, rfl, hname, hns⟩
  obtain ⟨fs, rfl⟩ := exists_map_of_mem_elements hw.containers hc
  exact container_succeeds (hw.env _ hc) (hw.names _ hc)

/-- A child is read exactly if it has a kind and a name. -/
theorem childObject_succeeds (h : Typed (.map es)) :
    SucceedsIf (Document.childObject (.map es))
      (NonEmpty (entry (.map es) "kind") ∧ NonEmpty (under (.map es) ["metadata", "name"]))
      fun c => c.kind = entry (.map es) "kind" ∧ c.name = under (.map es) ["metadata", "name"] ∧
        c.ns = under (.map es) ["metadata", "namespace"] := by
  unfold Document.childObject
  rw [← isTrue_iff_nonEmpty h.kind]
  refine SucceedsIf.step (get_map es "kind") (SucceedsIf.guarded fun _ => ?_)
  refine ((metadata_succeeds _ false h).andThen fun m ⟨hname, hns⟩ => ?_).of_iff (by simp [under])
  exact ⟨_, rfl, rfl, hname, hns⟩

/-- The cluster proxy is read exactly if it is named. -/
theorem clusterProxy_succeeds (h : Typed (.map es)) (hp : IsMapping (under (.map es) ["status"])) :
    SucceedsIf (Document.clusterProxy (.map es)) (Named (.map es) Document.configDomain false)
      fun p => p.name = under (.map es) ["metadata", "name"] ∧ p.ns = .null := by
  unfold Document.clusterProxy
  refine (checkVersion_succeeds _ h.version).bind fun _ _ => ?_
  refine (metadata_succeeds _ _ h).andThen fun m ⟨hname, _⟩ => ?_
  obtain ⟨status, hstatus, -⟩ := section?_map rfl hp
  rw [hstatus]
  exact ⟨_, rfl, hname, rfl⟩

/-- The operator hub is read exactly if it is named and each of its sources has a name. -/
theorem operatorHub_succeeds (h : Typed (.map es)) (hspec : IsMapping (under (.map es) ["spec"]))
    (hsources : IsListing (under (.map es) ["spec", "sources"])) :
    SucceedsIf (Document.operatorHub (.map es))
      (Named (.map es) Document.configDomain false ∧
        ∀ s ∈ elements (under (.map es) ["spec", "sources"]), HasKey s "name")
      fun o => o.name = under (.map es) ["metadata", "name"] ∧ o.ns = .null := by
  unfold Document.operatorHub
  refine ((checkVersion_succeeds _ h.version).bind fun _ _ =>
    (metadata_succeeds _ _ h).bind fun m ⟨hname, hns⟩ => ?_).of_iff and_assoc
  obtain ⟨spec, hsection, hentry⟩ := section?_map rfl hspec
  refine SucceedsIf.step hsection (SucceedsIf.step (items_map hentry hsources) ?_)
  refine (SucceedsIf.mapM fun s hs => ?_).andThen fun sources _ => ⟨_, rfl, hname, rfl⟩
  obtain ⟨fs, rfl⟩ := exists_map_of_mem_elements hsources hs
  exact hubSource_succeeds fs

end

/-! ### Documents -/

/-- The managed kinds have names. -/
theorem OfManagedKind.nonEmpty {doc : Value} (h : OfManagedKind doc) :
    NonEmpty (entry doc "kind") := by
  rcases h with hk | hk <;> exact ⟨_, hk, by decide⟩

/-- The cluster kinds have names. -/
theorem OfClusterKind.nonEmpty {doc : Value} (h : OfClusterKind doc) :
    NonEmpty (entry doc "kind") := by
  rcases h with hk | hk <;> exact ⟨_, hk, by decide⟩

/-- No managed kind is a cluster kind. -/
theorem OfManagedKind.not_cluster {doc : Value} (h : OfManagedKind doc) : ¬OfClusterKind doc := by
  rcases h with hk | hk <;> rw [OfClusterKind, hk] <;> decide

/-- No managed kind is that of deployments. -/
theorem OfManagedKind.ne_deployment {doc : Value} (h : OfManagedKind doc) :
    entry doc "kind" ≠ .text Kind.deployment := by
  rcases h with hk | hk <;> rw [hk] <;> decide

/-- No cluster kind is that of deployments. -/
theorem OfClusterKind.ne_deployment {doc : Value} (h : OfClusterKind doc) :
    entry doc "kind" ≠ .text Kind.deployment := by
  rcases h with hk | hk <;> rw [hk] <;> decide

/-- The document of a kind that is known by name is accepted if it is of the right version and names
its object, and the parts that only some kinds have are complete. -/
theorem accepted_iff_named {doc : Value} {domain : String} (namespaced : Bool)
    (hkind : NonEmpty (entry doc "kind")) (hdomain : domainOf? doc = some domain)
    (hns : (OfManagedKind doc ∨ entry doc "kind" = .text Kind.deployment) ↔ namespaced = true) :
    Accepted doc ↔ Named doc domain namespaced ∧
      (entry doc "kind" = .text Kind.deployment →
        ∀ c ∈ containersIn doc, ∀ v ∈ elements (entry c "env"), NonEmpty (entry v "name")) ∧
      (entry doc "kind" = .text Kind.operatorHub →
        ∀ s ∈ elements (under doc ["spec", "sources"]), HasKey s "name") := by
  constructor
  · intro h
    exact ⟨⟨⟨h.version, h.domain domain hdomain⟩, h.name, fun hb => h.ns (hns.2 hb)⟩, h.env,
      h.sources⟩
  · rintro ⟨⟨⟨hversion, hbegins⟩, hname, hnamespace⟩, henv, hsources⟩
    refine ⟨hkind, hversion, fun d hd => ?_, hname, fun hk => hnamespace (hns.1 hk), henv, hsources⟩
    rw [hdomain] at hd
    cases hd
    exact hbegins

/-- A managed resource is accepted if it is of the right version and has a name and a namespace. -/
theorem accepted_iff_managed {doc : Value} (h : OfManagedKind doc) :
    Accepted doc ↔ Named doc Document.marketplaceDomain true :=
  (accepted_iff_named true h.nonEmpty (if_pos h) (iff_of_true (.inl h) rfl)).trans
    (and_iff_left ⟨fun hk => absurd hk h.ne_deployment, fun hk => absurd (.inr hk) h.not_cluster⟩)

/-- Of a deployment, the names of the environment variables count too. -/
theorem accepted_iff_deployment {doc : Value} (hk : entry doc "kind" = .text Kind.deployment) :
    Accepted doc ↔ Named doc Document.appsDomain true ∧
      ∀ c ∈ containersIn doc, ∀ v ∈ elements (entry c "env"), NonEmpty (entry v "name") := by
  have hdomain : domainOf? doc = some Document.appsDomain := by
    rw [domainOf?, if_neg fun h => OfManagedKind.ne_deployment h hk, if_pos hk]
  refine (accepted_iff_named true ⟨_, hk, by decide⟩ hdomain (iff_of_true (.inr hk) rfl)).trans
    (and_congr_right fun _ => (and_iff_left fun hhub => ?_).trans (forall_prop_of_true hk))
  exact absurd hk (OfClusterKind.ne_deployment (.inr hhub))

/-- An object of the cluster needs no namespace. Of the hub, the sources count too. -/
theorem accepted_iff_cluster {doc : Value} (h : OfClusterKind doc) :
    Accepted doc ↔ Named doc Document.configDomain false ∧
      (entry doc "kind" = .text Kind.operatorHub →
        ∀ s ∈ elements (under doc ["spec", "sources"]), HasKey s "name") := by
  have hmanaged : ¬OfManagedKind doc := fun hm => hm.not_cluster h
  have hdomain : domainOf? doc = some Document.configDomain := by
    rw [domainOf?, if_neg hmanaged, if_neg h.ne_deployment, if_pos h]
  refine (accepted_iff_named false h.nonEmpty hdomain
    (iff_of_false (not_or.2 ⟨hmanaged, h.ne_deployment⟩) nofun)).trans
    (and_congr_right fun _ => and_iff_right fun hk => ?_)
  exact absurd hk h.ne_deployment

/-- The document of a kind that is not known by name need not be of any particular version. -/
theorem accepted_iff_child {doc : Value} (hmanaged : ¬OfManagedKind doc)
    (hdeployment : entry doc "kind" ≠ .text Kind.deployment) (hcluster : ¬OfClusterKind doc) :
    Accepted doc ↔ NonEmpty (entry doc "apiVersion") ∧
      NonEmpty (entry doc "kind") ∧ NonEmpty (under doc ["metadata", "name"]) := by
  constructor
  · intro h
    exact ⟨h.version, h.kind, h.name⟩
  · rintro ⟨hversion, hkind, hname⟩
    refine ⟨hkind, hversion, ?_, hname, ?_, fun hk => absurd hk hdeployment,
      fun hk => absurd (.inr hk) hcluster⟩
    · have hdomain : domainOf? doc = none := by
        rw [domainOf?, if_neg hmanaged, if_neg hdeployment, if_neg hcluster]
      rw [hdomain]
      exact nofun
    · rintro (hk | hk)
      · exact absurd hk hmanaged
      · exact absurd hk hdeployment

/-- An object depicts its document if it has the kind and the name, no namespace exactly if its kind
has none, and the phase. -/
theorem depicts_of_identity {doc ns : Value} {m : Manifest}
    (hm : m.identity? = some ⟨entry doc "kind", ns, under doc ["metadata", "name"]⟩)
    (hns : ns = if OfClusterKind doc then .null else under doc ["metadata", "namespace"])
    (hphase : OfManagedKind doc → phaseOf? m = some (phaseIn doc)) : Depicts doc m := by
  refine ⟨?_, hphase⟩
  unfold Manifest.key?
  rw [hm, hns]
  rfl

/-- A typed document is read exactly if it is accepted. The kinds are tried one after the other. -/
theorem ofDocument?_succeeds {es : List (Value × Value)} (h : Typed (.map es)) :
    SucceedsIf (Manifest.ofDocument? (.map es)) (Accepted (.map es)) (Depicts (.map es)) := by
  have hfirst : Accepted (.map es) ↔ (entry (.map es) "kind").isTrue = true ∧
      (entry (.map es) "apiVersion").isTrue = true ∧ Accepted (.map es) := by
    rw [isTrue_iff_nonEmpty h.kind, isTrue_iff_nonEmpty h.version]
    exact ⟨fun ha => ⟨ha.kind, ha.version, ha⟩, fun ha => ha.2.2⟩
  unfold Manifest.ofDocument?
  -- The kind and the version are read first, and only then the kind decides about the class.
  refine SucceedsIf.of_iff ?_ hfirst
  refine SucceedsIf.step (get_map es "kind") (SucceedsIf.guarded fun _ => ?_)
  refine SucceedsIf.step (get_map es "apiVersion") (SucceedsIf.guarded fun hversion => ?_)
  simp only [beq_iff_eq]
  -- One case for each class, in the order in which the reader tries them. The last one takes what is
  -- left.
  refine SucceedsIf.choice (fun hk => ?source) fun hsource =>
    SucceedsIf.choice (fun hk => ?catalog) fun hcatalog =>
    SucceedsIf.choice (fun hk => ?deployment) fun hdeployment =>
    SucceedsIf.choice (fun hk => ?proxy) fun hproxy =>
    SucceedsIf.choice (fun hk => ?hub) fun hhub => ?child
  case source =>
    refine ((operatorSource_succeeds h (h.managed (.inl hk))).map ?_).of_iff
      (accepted_iff_managed (.inl hk))
    rintro r - ⟨hname, hns, hphase⟩
    refine depicts_of_identity (by rw [hk, ← hname]; rfl) ?_ fun _ => by rw [← hphase]; rfl
    rw [if_neg (OfManagedKind.not_cluster (.inl hk)), hns]
  case catalog =>
    refine ((catalogSourceConfig_succeeds h (h.managed (.inr hk))).map ?_).of_iff
      (accepted_iff_managed (.inr hk))
    rintro r - ⟨hname, hns, hphase⟩
    refine depicts_of_identity (by rw [hk, ← hname]; rfl) ?_ fun _ => by rw [← hphase]; rfl
    rw [if_neg (OfManagedKind.not_cluster (.inr hk)), hns]
  case deployment =>
    refine ((deployment_succeeds h (h.workload hk)).map ?_).of_iff (accepted_iff_deployment hk)
    rintro d - ⟨hname, hns⟩
    refine depicts_of_identity (by rw [hk, ← hname]; rfl) ?_ fun hm => absurd hm ?_
    · rw [if_neg fun h => OfClusterKind.ne_deployment h hk, hns]
    · exact not_or.2 ⟨hsource, hcatalog⟩
  case proxy =>
    refine ((clusterProxy_succeeds h (h.proxy hk)).map ?_).of_iff
      ((accepted_iff_cluster (.inl hk)).trans (and_iff_left ?_))
    · rintro p - ⟨hname, hns⟩
      refine depicts_of_identity (by rw [hk, ← hname]; rfl) ?_ fun hm => absurd hm ?_
      · rw [if_pos (.inl hk), hns]
      · exact not_or.2 ⟨hsource, hcatalog⟩
    · rw [hk]
      exact fun h => absurd h (by decide)
  case hub =>
    refine ((operatorHub_succeeds h (h.hub hk).1 (h.hub hk).2).map ?_).of_iff
      ((accepted_iff_cluster (.inr hk)).trans (and_congr_right fun _ => forall_prop_of_true hk))
    rintro o - ⟨hname, hns⟩
    refine depicts_of_identity (by rw [hk, ← hname]; rfl) ?_ fun hm => absurd hm ?_
    · rw [if_pos (.inr hk), hns]
    · exact not_or.2 ⟨hsource, hcatalog⟩
  case child =>
    have hmanaged : ¬OfManagedKind (.map es) := not_or.2 ⟨hsource, hcatalog⟩
    have hcluster : ¬OfClusterKind (.map es) := not_or.2 ⟨hproxy, hhub⟩
    refine ((childObject_succeeds h).map ?_).of_iff
      ((accepted_iff_child hmanaged hdeployment hcluster).trans
        (and_iff_right ((isTrue_iff_nonEmpty h.version).1 hversion)))
    rintro c - ⟨hkind, hname, hns⟩
    refine depicts_of_identity (by rw [← hkind, ← hname]; rfl) ?_ fun hm => absurd hm hmanaged
    rw [if_neg hcluster, hns]

/-- A typed document is read exactly if it is accepted. The object that is read has the identity
that the document gives it and, if it is a managed resource, the phase. -/
theorem reads_document (doc : Value) (h : Typed doc) :
    ((∃ m, Manifest.ofDocument? doc = .ok m) ↔ Accepted doc) ∧
      ∀ m, Manifest.ofDocument? doc = .ok m → Depicts doc m := by
  obtain ⟨es, rfl⟩ := h.mapping
  obtain ⟨hreads, hresult⟩ := ofDocument?_succeeds h
  exact ⟨⟨fun ⟨m, hm⟩ => (hresult m hm).1, hreads⟩, fun m hm => (hresult m hm).2⟩

/-- A catalog source config whose phase has a message but no name. -/
def unnamedPhase : Value :=
  .map [(.text "kind", .text Kind.catalogSourceConfig),
    (.text "apiVersion", .text "operators.coreos.com/v1"),
    (.text "metadata", .map [(.text "name", .text "c"), (.text "namespace", .text "n"),
      (.text "labels", .null)]),
    (.text "spec", .map []),
    (.text "status", .map [(.text "currentPhase", .map [(.text "phase",
      .map [(.text "name", .null), (.text "message", .text "m")])])])]

/-- The document is typed as its kind calls for. -/
theorem typed_unnamedPhase : Typed unnamedPhase where
  mapping := ⟨_, rfl⟩
  kind := .inr ⟨_, rfl⟩
  version := .inr ⟨_, rfl⟩
  metadata := .inr ⟨_, rfl⟩
  name := .inr ⟨_, rfl⟩
  ns := .inr ⟨_, rfl⟩
  labels := .inl rfl
  managed _ := ⟨.inr ⟨_, rfl⟩, .inr ⟨_, rfl⟩, .inr ⟨_, rfl⟩, .inr ⟨_, rfl⟩⟩
  workload h := absurd h (by decide)
  proxy h := absurd h (by decide)
  hub h := absurd h (by decide)

/-- A phase without a name in the document is the initial one, and keeps its message. -/
theorem reads_document_unnamedPhase :
    Typed unnamedPhase ∧ Accepted unnamedPhase ∧
      ∃ m, Manifest.ofDocument? unnamedPhase = .ok m ∧ Depicts unnamedPhase m ∧
        phaseIn unnamedPhase = { name := .text "Initial", message := .text "m" } := by
  obtain ⟨haccepted, hdepicts⟩ := reads_document unnamedPhase typed_unnamedPhase
  have hread : ∃ m, Manifest.ofDocument? unnamedPhase = .ok m := ⟨_, rfl⟩
  obtain ⟨m, hm⟩ := hread
  exact ⟨typed_unnamedPhase, haccepted.1 ⟨m, hm⟩, m, hm, hdepicts m hm, by decide⟩

end CatalogOperator.Proofs.Manifest
