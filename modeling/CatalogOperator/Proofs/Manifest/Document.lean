import CatalogOperator.Catalog.Validity
import CatalogOperator.Manifest.Document
import CatalogOperator.Source.Derived

/-!
# `CatalogOperator.Proofs.Manifest.Document`: what a document asks for

A field of a specification is given when it is there and not null. `SourceValid` and `CatalogValid`
say of a document, and not of what is read from it, whether its specification is valid: a field that
is not given takes its default.

* `sourceValid_iff`, `catalogValid_iff`: the same in terms of the resource that is read.
-/

set_option autoImplicit false

namespace CatalogOperator.Proofs.Manifest

/-- A sequence of steps that may fail gets to its end only through its first step. -/
theorem bind_eq_ok {α β : Type} {x : Except Fault α} {f : α → Except Fault β} {b : β}
    (h : x >>= f = .ok b) : ∃ a, x = .ok a ∧ f a = .ok b := by
  cases x with
  | error e => cases h
  | ok a => exact ⟨a, rfl, h⟩

/-- The value given for a field: nothing if the field is missing or null. -/
def given (spec : Value) (key : String) : Option Value :=
  match Document.find spec key with
  | .ok (some .null) => none
  | .ok e => e
  | .error _ => none

/-- What is read of a field is what is given for it. Without that it is the default or null. -/
theorem given_cases {spec default v : Value} {key : String}
    (h : Document.get spec key default = .ok v) :
    (given spec key = some v ∧ v ≠ .null) ∨
      (given spec key = none ∧ (v = .null ∨ v = default)) := by
  unfold Document.get at h
  unfold given
  cases hfind : Document.find spec key with
  | error f =>
    rw [hfind] at h
    cases h
  | ok e =>
    rw [hfind] at h
    cases h
    cases e with
    | none => exact .inr ⟨rfl, .inr rfl⟩
    | some w =>
      by_cases hw : w = .null
      · subst hw
        exact .inr ⟨rfl, .inl rfl⟩
      · refine .inl ⟨?_, hw⟩
        cases w <;> first | rfl | exact absurd rfl hw

/-- A field whose default does not count as present is given a value that does exactly if one is
read. -/
theorem exists_given_iff {spec default v : Value} {key : String}
    (h : Document.get spec key default = .ok v) (hdefault : default.isTrue = false) :
    (∃ w, given spec key = some w ∧ w.isTrue = true) ↔ v.isTrue = true := by
  rcases given_cases h with ⟨hg, -⟩ | ⟨hg, hv⟩
  · rw [hg]
    simp
  · rw [hg]
    rcases hv with rfl | rfl
    · simp [Value.isTrue]
    · simp [hdefault]

/-! ### Operator sources -/

/-- Whether the specification in the document of an operator source is valid: the registry is of the
supported type, which is the default, and an endpoint is given. -/
def SourceValid (doc : Value) : Prop :=
  ∃ spec, Document.section? doc "spec" = .ok spec ∧
    (∀ v, given spec "type" = some v → v = .text OperatorSource.supportedRegistry) ∧
    ∃ v, given spec "endpoint" = some v ∧ v.isTrue = true

/-- The fields of an operator source that are validated come from its document. -/
theorem operatorSource_eq_ok {doc : Value} {r : OperatorSource}
    (h : Document.operatorSource doc = .ok r) :
    ∃ spec, Document.section? doc "spec" = .ok spec ∧
      Document.get spec "type" (.text OperatorSource.supportedRegistry) =
        .ok r.spec.registryType ∧
      Document.get spec "endpoint" (.text "") = .ok r.spec.endpoint := by
  -- The fields are read one after the other. Only the two that are validated are followed.
  unfold Document.operatorSource at h
  obtain ⟨_, -, h⟩ := bind_eq_ok h
  obtain ⟨_, -, h⟩ := bind_eq_ok h
  obtain ⟨spec, hspec, h⟩ := bind_eq_ok h
  obtain ⟨_, -, h⟩ := bind_eq_ok h
  obtain ⟨registryType, htype, h⟩ := bind_eq_ok h
  obtain ⟨endpoint, hendpoint, h⟩ := bind_eq_ok h
  obtain ⟨_, -, h⟩ := bind_eq_ok h
  obtain ⟨_, -, h⟩ := bind_eq_ok h
  obtain ⟨_, -, h⟩ := bind_eq_ok h
  obtain ⟨_, -, h⟩ := bind_eq_ok h
  obtain ⟨_, -, h⟩ := bind_eq_ok h
  obtain ⟨_, -, h⟩ := bind_eq_ok h
  cases h
  exact ⟨spec, hspec, htype, hendpoint⟩

/-- A document is valid if the type that is read from it is supported or null, and an endpoint is
there. -/
theorem sourceValid_iff {doc : Value} {r : OperatorSource}
    (h : Document.operatorSource doc = .ok r) :
    SourceValid doc ↔
      (r.spec.registryType = .null ∨
        r.spec.registryType = .text OperatorSource.supportedRegistry) ∧
      r.spec.endpoint.isTrue = true := by
  obtain ⟨spec, hspec, htype, hendpoint⟩ := operatorSource_eq_ok h
  -- There is but one section that can be meant.
  have hvalid : SourceValid doc ↔
      (∀ v, given spec "type" = some v → v = .text OperatorSource.supportedRegistry) ∧
        ∃ v, given spec "endpoint" = some v ∧ v.isTrue = true := by
    unfold SourceValid
    rw [hspec]
    simp
  rw [hvalid]
  -- A type that is not given is read as null or as the default, and fine either way.
  refine and_congr ?_ (exists_given_iff hendpoint rfl)
  rcases given_cases htype with ⟨hg, hne⟩ | ⟨hg, hv⟩
  · rw [hg]
    simp [hne]
  · rw [hg]
    simp [hv]

/-! ### Catalog source configs -/

/-- Whether the specification in the document of a catalog source config is valid: a target
namespace is given, and a text that lists packages. -/
def CatalogValid (doc : Value) : Prop :=
  ∃ spec, Document.section? doc "spec" = .ok spec ∧
    (∃ v, given spec "targetNamespace" = some v ∧ v.isTrue = true) ∧
    ∃ s, given spec "packages" = some (.text s) ∧ PackageList.ids s.toList ≠ []

/-- The fields of a catalog source config that are validated come from its document. -/
theorem catalogSourceConfig_eq_ok {doc : Value} {r : CatalogSourceConfig}
    (h : Document.catalogSourceConfig doc = .ok r) :
    ∃ spec, Document.section? doc "spec" = .ok spec ∧
      Document.get spec "targetNamespace" (.text "") = .ok r.spec.targetNamespace ∧
      Document.get spec "packages" (.text "") = .ok r.spec.packages := by
  unfold Document.catalogSourceConfig at h
  obtain ⟨_, -, h⟩ := bind_eq_ok h
  obtain ⟨_, -, h⟩ := bind_eq_ok h
  obtain ⟨spec, hspec, h⟩ := bind_eq_ok h
  obtain ⟨_, -, h⟩ := bind_eq_ok h
  obtain ⟨targetNamespace, htarget, h⟩ := bind_eq_ok h
  obtain ⟨packages, hpackages, h⟩ := bind_eq_ok h
  obtain ⟨_, -, h⟩ := bind_eq_ok h
  obtain ⟨_, -, h⟩ := bind_eq_ok h
  obtain ⟨_, -, h⟩ := bind_eq_ok h
  obtain ⟨_, -, h⟩ := bind_eq_ok h
  obtain ⟨_, -, h⟩ := bind_eq_ok h
  cases h
  exact ⟨spec, hspec, htarget, hpackages⟩

/-- A document is valid if a target namespace is read from it, and a text that lists packages. -/
theorem catalogValid_iff {doc : Value} {r : CatalogSourceConfig}
    (h : Document.catalogSourceConfig doc = .ok r) :
    CatalogValid doc ↔
      r.spec.targetNamespace.isTrue = true ∧
        ∃ s, r.spec.packages = .text s ∧ PackageList.ids s.toList ≠ [] := by
  obtain ⟨spec, hspec, htarget, hpackages⟩ := catalogSourceConfig_eq_ok h
  have hvalid : CatalogValid doc ↔
      (∃ v, given spec "targetNamespace" = some v ∧ v.isTrue = true) ∧
        ∃ s, given spec "packages" = some (.text s) ∧ PackageList.ids s.toList ≠ [] := by
    unfold CatalogValid
    rw [hspec]
    simp
  rw [hvalid]
  refine and_congr (exists_given_iff htarget rfl) ?_
  rcases given_cases hpackages with ⟨hg, -⟩ | ⟨hg, hv⟩
  · rw [hg]
    simp
  · -- The default is a text, but one that lists nothing.
    have hempty : PackageList.ids "".toList = [] := by decide
    rw [hg]
    rcases hv with hv | hv
    · simp [hv]
    · simp only [hv, Value.text.injEq, exists_eq_left', hempty]
      simp

end CatalogOperator.Proofs.Manifest
