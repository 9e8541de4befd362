import CatalogOperator.Manifest.Basic

/-!
# `CatalogOperator.Proofs.Manifest.Same`: managed resources that count as equal

Two managed resources count as equal exactly when their fields do, one by one. Values that count as
equal may still differ, but a text counts as equal to nothing but itself. So two resources that
count as equal agree on the name and the message of their phase, provided these are texts.

* `ManagedContent`: the managed kinds by their fields.
* `Managed.same_toManifest_iff`: equality field by field.
* `Managed.SameIntent`: whether two resources agree on their specification and their labels.
-/

set_option autoImplicit false

namespace CatalogOperator

namespace Value

/-- The canonical form of a double is a number. -/
theorem canonicalDouble_ne_text (x : Double) (s : String) : canonicalDouble x ≠ .text s := by
  unfold canonicalDouble
  split
  · split <;> simp
  · simp

/-- The canonical form of a point in time is no text. -/
theorem canonicalMoment_ne_text (t : Moment) (s : String) : canonicalMoment t ≠ .text s := by
  unfold canonicalMoment
  split <;> simp

/-- Only a text has a text as its canonical form. -/
theorem canonical_eq_text_iff {v : Value} {s : String} : canonical v = .text s ↔ v = .text s := by
  -- Doubles and points in time are brought to another form. All else keeps its constructor.
  cases v with
  | float x => simp [canonical, canonicalDouble_ne_text]
  | moment t => simp [canonical, canonicalMoment_ne_text]
  | _ => simp [canonical]

/-- A text counts as equal to nothing but itself. -/
theorem same_text_iff {v : Value} {s : String} : same v (.text s) = true ↔ v = .text s := by
  rw [same, decide_eq_true_eq, ← canonical_eq_text_iff]
  simp [canonical]

/-- Only an absent value has an absent one as its canonical form. -/
theorem canonical_eq_null_iff {v : Value} : canonical v = .null ↔ v = .null := by
  cases v with
  | float x =>
    unfold canonical canonicalDouble
    split
    · split <;> simp
    · simp
  | moment t =>
    unfold canonical canonicalMoment
    split <;> simp
  | _ => simp [canonical]

/-- An absent value counts as equal to nothing but itself. -/
theorem same_null_iff {v : Value} : same v .null = true ↔ v = .null := by
  rw [same, decide_eq_true_eq, ← canonical_eq_null_iff]
  simp [canonical]

/-- Only the double that is no number has itself as its canonical form. -/
theorem canonical_eq_nan_iff {v : Value} : canonical v = .float .nan ↔ v = .float .nan := by
  cases v with
  | float x =>
    unfold canonical canonicalDouble
    split
    · split
      · -- A double that stands for a whole number is one.
        next q hq _ =>
        refine iff_of_false (by simp) fun h => ?_
        cases h
        cases hq
      · simp
    · simp
  | moment t =>
    unfold canonical canonicalMoment
    split <;> simp
  | _ => simp [canonical]

/-- The double that is no number counts as equal to nothing but itself. -/
theorem same_nan_iff {v : Value} : same v (.float .nan) = true ↔ v = .float .nan := by
  rw [same, decide_eq_true_eq, ← canonical_eq_nan_iff]
  rfl

/-- Whether values count as equal does not depend on their order. -/
theorem same_comm (a b : Value) : same a b = same b a := by
  rw [Bool.eq_iff_iff]
  exact ⟨same_symm, same_symm⟩

/-- Lists count as equal item by item. -/
@[simp] theorem same_list_cons (a b : Value) (as bs : List Value) :
    same (.list (a :: as)) (.list (b :: bs)) = (same a b && same (.list as) (.list bs)) := by
  simp [same, canonical, canonicalItems]

end Value

/-- It does not matter which of two manifests is compared with the other one. -/
theorem Manifest.same_comm (a b : Manifest) : a.same b = b.same a := by
  rw [Manifest.same, Manifest.same, Value.same_comm]
  congr 1
  rw [Bool.eq_iff_iff, beq_iff_eq, beq_iff_eq]
  exact ⟨Eq.symm, Eq.symm⟩

namespace PhaseRecord

/-- Phases that count as equal agree on a name that is a text. -/
theorem name_of_same {p q : PhaseRecord} {s : String} (h : p.content.same q.content = true)
    (hq : q.name = .text s) : p.name = .text s := by
  simp only [content, Value.same_list_cons, Bool.and_eq_true] at h
  rw [hq] at h
  exact Value.same_text_iff.1 h.1

/-- Phases that count as equal agree on a message that is a text. -/
theorem message_of_same {p q : PhaseRecord} {s : String} (h : p.content.same q.content = true)
    (hq : q.message = .text s) : p.message = .text s := by
  simp only [content, Value.same_list_cons, Bool.and_eq_true] at h
  rw [hq] at h
  exact Value.same_text_iff.1 h.2.1

end PhaseRecord

/-! ### Managed resources field by field -/

/-- The fields of a managed kind: the specification and the packages as values, and the class
by which an object of the kind is known. -/
class ManagedContent (Spec : Type) {Packages : Type} [ManagedKind Spec Packages] where
  specValue : Spec → Value
  packagesValue : Packages → Value
  typeName_toManifest : ∀ r : Managed Spec Packages,
    r.toManifest.typeName = ManagedKind.kind Spec
  exists_of_typeName : ∀ m : Manifest, m.typeName = ManagedKind.kind Spec →
    ∃ r : Managed Spec Packages, m = r.toManifest
  content_toManifest : ∀ r : Managed Spec Packages,
    r.toManifest.content = .list [r.name, r.ns, .map r.labels, specValue r.spec,
      r.phase.content, packagesValue r.packages]

instance : ManagedContent SourceSpec where
  specValue := SourceSpec.content
  packagesValue := id
  typeName_toManifest _ := rfl
  exists_of_typeName m h := by
    cases m with
    | operatorSource r => exact ⟨r, rfl⟩
    | part p => cases p <;> simp [Manifest.typeName, ManagedKind.kind, Kind.operatorSource] at h
    | _ => simp [Manifest.typeName, ManagedKind.kind, Kind.operatorSource] at h
  content_toManifest _ := rfl

instance : ManagedContent CatalogSpec where
  specValue := CatalogSpec.content
  packagesValue packages := .list (packages.map PackageSummary.content)
  typeName_toManifest _ := rfl
  exists_of_typeName m h := by
    cases m with
    | catalogSourceConfig r => exact ⟨r, rfl⟩
    | part p =>
      cases p <;> simp [Manifest.typeName, ManagedKind.kind, Kind.catalogSourceConfig] at h
    | _ => simp [Manifest.typeName, ManagedKind.kind, Kind.catalogSourceConfig] at h
  content_toManifest _ := rfl

namespace Managed

variable {Spec Packages : Type} [ManagedKind Spec Packages]

/-- A managed resource and its manifest have the same key. -/
theorem key?_toManifest (r : Managed Spec Packages) : r.toManifest.key? = .ok r.key := by
  unfold Manifest.key?
  rw [show r.toManifest.identity? = some r.key from ManagedKind.identity?_toManifest r]

/-- The kind of a managed resource is that of its manifest. -/
theorem ofManifest?_toManifest (r : Managed Spec Packages) :
    ManagedKind.ofManifest? r.toManifest = some r :=
  (ManagedKind.ofManifest?_eq_some_iff _ _).2 rfl

/-- Managed resources with the same manifest are the same. -/
theorem toManifest_injective {r r' : Managed Spec Packages} (h : r.toManifest = r'.toManifest) :
    r = r' := by
  have hr := ofManifest?_toManifest r
  rw [h, ofManifest?_toManifest r'] at hr
  exact (Option.some.inj hr).symm

variable [ManagedContent Spec]

/-- The specification as one value. -/
def specValue (r : Managed Spec Packages) : Value :=
  ManagedContent.specValue Packages r.spec

/-- The packages as one value. -/
def packagesValue (r : Managed Spec Packages) : Value :=
  ManagedContent.packagesValue Spec r.packages

/-- Managed resources count as equal exactly when their fields do. -/
theorem same_toManifest_iff {a b : Managed Spec Packages} :
    a.toManifest.same b.toManifest = true ↔
      a.name.same b.name ∧ a.ns.same b.ns ∧ (Value.map a.labels).same (.map b.labels) ∧
        a.specValue.same b.specValue ∧ a.phase.content.same b.phase.content ∧
        a.packagesValue.same b.packagesValue := by
  -- The classes are the same, so the contents decide, which are lists of the fields.
  rw [Manifest.same, ManagedContent.typeName_toManifest, ManagedContent.typeName_toManifest,
    ManagedContent.content_toManifest, ManagedContent.content_toManifest]
  simp [specValue, packagesValue]

/-- Whether two resources agree on what the user decides: the specification and the labels. -/
def SameIntent (a b : Managed Spec Packages) : Prop :=
  (Value.map a.labels).same (.map b.labels) = true ∧
    a.specValue.same b.specValue = true

instance (a b : Managed Spec Packages) : Decidable (a.SameIntent b) :=
  inferInstanceAs (Decidable (_ ∧ _))

/-- A resource has the intent it has. -/
theorem SameIntent.refl (a : Managed Spec Packages) : a.SameIntent a :=
  ⟨Value.same_refl _, Value.same_refl _⟩

/-- It does not matter which of two resources has the intent of the other one. -/
theorem SameIntent.symm {a b : Managed Spec Packages} (h : a.SameIntent b) : b.SameIntent a :=
  ⟨Value.same_symm h.1, Value.same_symm h.2⟩

/-- Two resources with the intent of a third one have the same. -/
theorem SameIntent.trans {a b c : Managed Spec Packages} (h : a.SameIntent b)
    (h' : b.SameIntent c) : a.SameIntent c :=
  ⟨Value.same_trans h.1 h'.1, Value.same_trans h.2 h'.2⟩

/-- What counts as equal to a managed resource is one. -/
theorem exists_of_same {m : Manifest} {r : Managed Spec Packages}
    (h : m.same r.toManifest = true) : ∃ r' : Managed Spec Packages, m = r'.toManifest := by
  rw [Manifest.same, Bool.and_eq_true, beq_iff_eq, ManagedContent.typeName_toManifest] at h
  exact ManagedContent.exists_of_typeName m h.1

/-- Resources that count as equal agree on what the user decides. -/
theorem sameIntent_of_same {a b : Managed Spec Packages}
    (h : a.toManifest.same b.toManifest = true) : a.SameIntent b := by
  obtain ⟨-, -, labels, spec, -, -⟩ := same_toManifest_iff.1 h
  exact ⟨labels, spec⟩

/-- Resources that count as equal agree on a phase whose name and message are texts. -/
theorem phase_of_same {a b : Managed Spec Packages} {name message : String}
    (h : a.toManifest.same b.toManifest = true) (hn : b.phase.name = .text name)
    (hm : b.phase.message = .text message) :
    a.phase.name = .text name ∧ a.phase.message = .text message := by
  obtain ⟨-, -, -, -, phase, -⟩ := same_toManifest_iff.1 h
  exact ⟨PhaseRecord.name_of_same phase hn, PhaseRecord.message_of_same phase hm⟩

end Managed

end CatalogOperator
