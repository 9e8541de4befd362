import CatalogOperator.Proofs.Manifest.Acceptance
import Mathlib.Tactic.MkIffOfInductiveProp
import Mathlib.Tactic.Tauto

/-!
# `CatalogOperator.Proofs.Manifest.Refusal`: the documents that are refused

A document is a mapping that may hold anything. Reading one asks its parts for entries and items one
after the other, and ends at the first part that cannot answer. A part that lacks something is found
out by a check, and the document is refused as malformed. A part that is of the wrong type is not
looked at before it is asked, so what ends the reading is a fault of another kind. The one thing that
can be missing without a check is the name of a default source.

Which of the two happens depends on what comes first: whatever follows the part that ends the
reading may be anything.

* `Verdict`: a reading that ends properly if one condition holds, and has a result if another one
  does too.
* `Sound`: no part of the wrong type is come to, and no default source without a name.
* `Complete`: nothing is missing that is checked.
* `refuses_document_iff`: a reading ends in an object or in a refusal exactly if the document is
  sound.
-/

set_option autoImplicit false

namespace CatalogOperator.Proofs.Manifest

/-! ### Verdicts -/

/-- A reading that has a result or refuses the document as malformed. -/
def Reported {α : Type} (x : Except Fault α) : Prop :=
  (∃ a, x = .ok a) ∨ ∃ problem, x = .error (.malformedDocument problem)

/-- A fault is reported exactly if it is that of a malformed document. -/
theorem reported_error {α : Type} {e : Fault} :
    Reported (.error e : Except Fault α) ↔ ∃ problem, e = .malformedDocument problem := by
  simp [Reported]

/-- A reading that ends properly exactly if what it looks at is sound. It has a result exactly if
nothing is missing either. -/
structure Verdict {α : Type} (x : Except Fault α) (sound complete : Prop) : Prop where
  reported : Reported x ↔ sound
  read : (∃ a, x = .ok a) ↔ sound ∧ complete

/-- Each item is sound, up to the first one that is not complete. -/
def SoundUpTo (complete sound : Value → Prop) : List Value → Prop
  | [] => True
  | v :: vs => sound v ∧ (complete v → SoundUpTo complete sound vs)

/-- If every element is complete, all of them have to be sound. -/
theorem soundUpTo_true {sound : Value → Prop} {vs : List Value} :
    SoundUpTo (fun _ => True) sound vs ↔ ∀ v ∈ vs, sound v := by
  induction vs with
  | nil => simp [SoundUpTo]
  | cons v vs ih => simp [SoundUpTo, ih]

namespace Verdict

variable {α β : Type} {x : Except Fault α} {f : α → Except Fault β}
  {sound complete sound' complete' : Prop}

/-- What is done without a fault is sound and complete. -/
theorem done {a : α} (hs : sound) (hc : complete) : Verdict (.ok a) sound complete :=
  ⟨iff_of_true (.inl ⟨a, rfl⟩) hs, iff_of_true ⟨a, rfl⟩ ⟨hs, hc⟩⟩

/-- A fault that is not about a malformed document is no proper end. -/
theorem misread {e : Fault} (h : ∀ problem, e ≠ .malformedDocument problem) (hs : ¬sound) :
    Verdict (.error e : Except Fault α) sound complete := by
  refine ⟨reported_error.trans (iff_of_false ?_ hs), iff_of_false (by simp) fun h => hs h.1⟩
  rintro ⟨problem, hp⟩
  exact h problem hp

/-- The conditions may be replaced by equivalent ones. What is missing only matters if all is
sound. -/
theorem of_iff (hx : Verdict x sound complete) (hs : sound' ↔ sound)
    (hc : sound → (complete' ↔ complete)) : Verdict x sound' complete' :=
  ⟨hx.reported.trans hs.symm, hx.read.trans (by rw [hs]; exact (and_congr_right hc).symm)⟩

/-- A step whose result is known. -/
theorem step {a : α} (hx : x = .ok a) (hf : Verdict (f a) sound complete) :
    Verdict (x >>= f) sound complete := by
  rw [hx]
  exact hf

/-- The second of two readings only matters if the first one has a result. -/
theorem bind (hx : Verdict x sound complete)
    (hf : ∀ a, x = .ok a → Verdict (f a) sound' complete') :
    Verdict (x >>= f) (sound ∧ (complete → sound')) (complete ∧ complete') := by
  cases x with
  | ok a =>
    obtain ⟨hs, hc⟩ := hx.read.1 ⟨a, rfl⟩
    exact (hf a rfl).of_iff (by simp [hs, hc]) fun _ => by simp [hc]
  | error e =>
    have hno : ¬(sound ∧ complete) := fun h => absurd (hx.read.2 h) (by simp)
    have hreported : Reported (.error e : Except Fault β) ↔ sound :=
      reported_error.trans (reported_error.symm.trans hx.reported)
    refine ⟨hreported.trans ⟨fun hs => ⟨hs, fun hc => absurd ⟨hs, hc⟩ hno⟩, And.left⟩, ?_⟩
    exact iff_of_false (by rintro ⟨_, ⟨⟩⟩) fun h => hno ⟨h.1.1, h.2.1⟩

/-- What always has a result adds no condition. -/
theorem andThen (hx : Verdict x sound complete) (hf : ∀ a, ∃ b, f a = .ok b) :
    Verdict (x >>= f) sound complete := by
  refine (hx.bind fun a _ => (?_ : Verdict _ True True)).of_iff (by simp) fun _ => by simp
  obtain ⟨b, hb⟩ := hf a
  rw [hb]
  exact done trivial trivial

/-- A value whose absence is reported. -/
theorem guarded {present : Bool} {problem : String} {doc : Value}
    (hx : present = true → Verdict x sound complete) :
    Verdict (if !present then .error (Document.malformed problem doc) else x)
      (present = true → sound) (present = true ∧ complete) := by
  cases present with
  | false => exact ⟨iff_of_true (.inr ⟨_, rfl⟩) nofun, by simp⟩
  | true => exact (hx rfl).of_iff (by simp) fun _ => by simp

/-- A value whose absence is reported where it is required. -/
theorem guardedIf {required present : Bool} {problem : String} {doc : Value}
    (hx : Verdict x sound complete) :
    Verdict (if required && !present then .error (Document.malformed problem doc) else x)
      ((required = true → present = true) → sound)
      ((required = true → present = true) ∧ complete) := by
  cases required with
  | false => exact hx.of_iff (by simp) fun _ => by simp
  | true => exact (guarded fun _ => hx).of_iff (by simp) fun _ => by simp

/-- A bare check. -/
theorem decided {fit : Bool} {problem : String} {doc : Value} :
    Verdict (if fit then (pure () : Except Fault Unit) else .error (Document.malformed problem doc))
      True (fit = true) := by
  cases fit with
  | false => exact ⟨iff_true_intro (.inr ⟨_, rfl⟩), by simp⟩
  | true => exact done trivial rfl

/-- A choice between two readings under one pair of conditions. -/
theorem choice {p : Prop} [Decidable p] {y : Except Fault α} (hx : p → Verdict x sound complete)
    (hy : ¬p → Verdict y sound complete) : Verdict (if p then x else y) sound complete := by
  by_cases hp : p
  · rw [if_pos hp]
    exact hx hp
  · rw [if_neg hp]
    exact hy hp

/-- A reading whose result is wrapped. -/
theorem map {g : α → β} (hx : Verdict x sound complete) : Verdict (x.map g) sound complete := by
  cases x with
  | error e =>
    refine ⟨Iff.trans ?_ hx.reported, Iff.trans ?_ hx.read⟩
    · simp [Reported, Except.map]
    · simp [Except.map]
  | ok a =>
    obtain ⟨hs, hc⟩ := hx.read.1 ⟨a, rfl⟩
    exact done hs hc

/-- The items of a list are read up to the first one that has no result. -/
theorem mapM {f : Value → Except Fault β} {fit whole : Value → Prop} {vs : List Value}
    (h : ∀ v ∈ vs, Verdict (f v) (fit v) (whole v)) :
    Verdict (vs.mapM f) (SoundUpTo whole fit vs) (∀ v ∈ vs, whole v) := by
  induction vs with
  | nil => exact done trivial nofun
  | cons v vs ih =>
    obtain ⟨hv, hvs⟩ := List.forall_mem_cons.1 h
    rw [List.mapM_cons]
    exact (hv.bind fun y _ => (ih hvs).andThen fun ys => ⟨_, rfl⟩).of_iff Iff.rfl
      fun _ => List.forall_mem_cons

end Verdict

/-! ### What parts are asked for -/

/-- A mapping, if the value counts as present. -/
def Opens (v : Value) : Prop :=
  v.isTrue = true → ∃ es, v = .map es

/-- A value with items, if the value counts as present. -/
def Lists (v : Value) : Prop :=
  v.isTrue = true → ∃ vs, Conversion.items v = some vs

/-- The items of a value that counts as present. -/
def itemsOf (v : Value) : List Value :=
  if v.isTrue then (Conversion.items v).getD [] else []

/-- A value of two items, the first of which can be a key. -/
def Pairs (v : Value) : Prop :=
  ∃ k x, Conversion.items v = some [k, x] ∧ k.isScalar = true

/-- A mapping or a listing of pairs, if the value counts as present. -/
def Labelling (v : Value) : Prop :=
  v.isTrue = true → (∃ es, v = .map es) ∨ ∃ vs, Conversion.items v = some vs ∧ ∀ w ∈ vs, Pairs w

/-- The metadata of a document give a name and, if one is asked for, a namespace. -/
def Names (doc : Value) (namespaced : Bool) : Prop :=
  (under doc ["metadata", "name"]).isTrue = true ∧
    (namespaced = true → (under doc ["metadata", "namespace"]).isTrue = true)

/-- A variable of a container has a name. -/
def NamesVariable (v : Value) : Prop :=
  (entry v "name").isTrue = true

/-- A container whose variables can be asked for their names, up to the first one without. -/
@[mk_iff]
structure SoundContainer (c : Value) : Prop where
  mapping : ∃ es, c = .map es
  env : Lists (entry c "env")
  named : SoundUpTo NamesVariable (fun v => ∃ es, v = .map es) (itemsOf (entry c "env"))

/-- All variables of a container have names. -/
def CompleteContainer (c : Value) : Prop :=
  ∀ v ∈ itemsOf (entry c "env"), NamesVariable v

/-- What counts as absent has no entries. -/
theorem entry_of_absent {v : Value} (h : v.isTrue = false) (key : String) :
    entry v key = .null := by
  cases v with
  | map es =>
    cases es with
    | nil => rfl
    | cons e es => cases h
  | _ => rfl

/-- A section is a mapping if there is one or none. -/
theorem orElse_eq_map_iff {v : Value} :
    (∃ es, v.orElse (.map []) = .map es) ↔ Opens v := by
  unfold Value.orElse Opens
  split <;> simp [*]

/-- An empty mapping in place of what counts as absent changes no entry. -/
theorem entry_orElse (v : Value) (key : String) :
    entry (v.orElse (.map [])) key = entry v key := by
  unfold Value.orElse
  split
  · rfl
  · rename_i h
    rw [entry_of_absent (Bool.eq_false_iff.2 h)]
    rfl

/-- Only a mapping can be asked for an entry. -/
theorem get_verdict (v : Value) (key : String) (default : Value) :
    Verdict (Document.get v key default) (∃ es, v = .map es) True := by
  cases v with
  | map es => exact Verdict.done ⟨es, rfl⟩ trivial
  | _ => exact Verdict.misread (by simp [Fault.lacking]) (by simp)

/-- What a value answers is its entry. -/
theorem get_eq_ok {v e : Value} {key : String} (h : Document.get v key = .ok e) :
    e = entry v key := by
  obtain ⟨es, rfl⟩ := ((get_verdict v key .null).read.1 ⟨e, h⟩).1
  rw [get_map] at h
  exact (Except.ok.inj h).symm

section

variable {α : Type} {f : Value → Except Fault α} {fit whole : Prop}

/-- What is read under a key is the entry. -/
theorem entry_verdict (v : Value) (key : String) (hf : Verdict (f (entry v key)) fit whole) :
    Verdict (Document.get v key >>= f) ((∃ es, v = .map es) ∧ fit) whole := by
  refine ((get_verdict v key .null).bind fun e he => (?_ : Verdict _ fit whole)).of_iff (by simp)
    fun _ => by simp
  rw [get_eq_ok he]
  exact hf

/-- What is read as the section under a key is the entry, or an empty mapping in its place. -/
theorem section_verdict (v : Value) (key : String)
    (hf : Verdict (f ((entry v key).orElse (.map []))) fit whole) :
    Verdict (Document.section? v key >>= f) ((∃ es, v = .map es) ∧ fit) whole := by
  have hsection : (Document.section? v key >>= f) =
      (Document.get v key >>= fun e => f (e.orElse (.map []))) := by
    unfold Document.section?
    cases Document.get v key <;> rfl
  rw [hsection]
  exact entry_verdict v key hf

end

/-- What stands under a key is asked for its items if it counts as present. -/
theorem items_verdict (v : Value) (key : String) :
    Verdict (Document.items v key) ((∃ es, v = .map es) ∧ Lists (entry v key)) True := by
  refine entry_verdict v key ?_
  unfold Lists
  cases (entry v key).isTrue with
  | false => exact Verdict.done nofun trivial
  | true =>
    cases Conversion.items (entry v key) with
    | none => exact Verdict.misread (by simp [Fault.notIterable]) (by simp)
    | some vs => exact Verdict.done (fun _ => ⟨vs, rfl⟩) trivial

/-- The items that are read are those of the entry. -/
theorem items_eq_ok {v : Value} {key : String} {vs : List Value}
    (h : Document.items v key = .ok vs) : vs = itemsOf (entry v key) := by
  unfold Document.items at h
  obtain ⟨e, he, h⟩ := bind_eq_ok h
  rw [← get_eq_ok he]
  unfold itemsOf
  cases hp : e.isTrue with
  | false =>
    rw [hp] at h
    cases h
    rfl
  | true =>
    rw [hp] at h
    cases hitems : Conversion.items e with
    | none =>
      rw [hitems] at h
      cases h
    | some ws =>
      rw [hitems] at h
      cases h
      rfl

/-- Each item under a key is read, up to the first one that has no result. -/
theorem eachItem_verdict {β γ : Type} {f : Value → Except Fault β} {g : List β → Except Fault γ}
    {fit whole : Value → Prop} (hf : ∀ w, Verdict (f w) (fit w) (whole w))
    (hg : ∀ ys, ∃ c, g ys = .ok c) (v : Value) (key : String) :
    Verdict (Document.items v key >>= fun vs => vs.mapM f >>= g)
      ((∃ es, v = .map es) ∧ Lists (entry v key) ∧ SoundUpTo whole fit (itemsOf (entry v key)))
      (∀ w ∈ itemsOf (entry v key), whole w) := by
  refine ((items_verdict v key).bind fun vs hvs =>
    (?_ : Verdict _ (SoundUpTo whole fit (itemsOf (entry v key)))
      (∀ w ∈ itemsOf (entry v key), whole w))).of_iff (by simp [and_assoc]) fun _ => by simp
  rw [← items_eq_ok hvs]
  exact (Verdict.mapM fun w _ => hf w).andThen hg

/-! ### Reading the parts -/

/-- A version is asked how it begins. -/
theorem checkVersion_verdict (es : List (Value × Value)) (domain : String) :
    Verdict (Document.checkVersion (.map es) domain)
      ((entry (.map es) "apiVersion").isTrue = true →
        ∃ s, entry (.map es) "apiVersion" = .text s)
      ((entry (.map es) "apiVersion").isTrue = true ∧
        BeginsWith (entry (.map es) "apiVersion") domain) := by
  unfold Document.checkVersion
  refine Verdict.step (get_map es "apiVersion") (Verdict.guarded fun _ => ?_)
  cases entry (.map es) "apiVersion" with
  | text s =>
    have hbegins : BeginsWith (.text s) domain ↔ domain.toList.isPrefixOf s.toList = true := by
      simp [BeginsWith]
    exact Verdict.decided.of_iff (by simp) fun _ => hbegins
  | bytes bs => exact Verdict.misread (by simp) (by simp)
  | _ => exact Verdict.misread (by simp [Fault.lacking]) (by simp)

/-- An item is an entry of a mapping if it stands for a pair. -/
theorem entryOfItem_verdict (position : Nat) (v : Value) :
    Verdict (Document.entryOfItem position v) (Pairs v) True := by
  unfold Document.entryOfItem Pairs
  split
  · rename_i h
    exact Verdict.misread (by simp) (by simp [h])
  · rename_i k w h
    cases hk : k.isScalar with
    | true => exact Verdict.done ⟨k, w, h, hk⟩ trivial
    | false => exact Verdict.misread (by simp [Fault.notAKey]) (by simp [h, hk])
  · rename_i vs hvs h
    refine Verdict.misread (by simp) ?_
    rintro ⟨k, w, hkw, -⟩
    rw [h] at hkw
    exact hvs k w (Option.some.inj hkw)

/-- Items are the entries of a mapping if all of them stand for pairs. -/
theorem entriesOfItems_verdict (position : Nat) (vs : List Value) :
    Verdict (Document.entriesOfItems position vs) (∀ v ∈ vs, Pairs v) True := by
  induction vs generalizing position with
  | nil => exact Verdict.done nofun trivial
  | cons v vs ih =>
    exact ((entryOfItem_verdict position v).bind fun e _ =>
      (ih (position + 1)).andThen fun es => ⟨_, rfl⟩).of_iff (by simp) fun _ => by simp

/-- Labels that are no mapping are asked for their items. -/
theorem labels_verdict (metadata : Value) :
    Verdict (Document.labels metadata)
      ((∃ es, metadata = .map es) ∧ Labelling (entry metadata "labels")) True := by
  refine section_verdict metadata "labels" ?_
  unfold Labelling Value.orElse
  cases (entry metadata "labels").isTrue with
  | false => exact Verdict.done nofun trivial
  | true =>
    rw [if_pos rfl]
    split
    · rename_i es h
      exact Verdict.done (fun _ => .inl ⟨es, h⟩) trivial
    · rename_i hno
      have hno : ¬∃ es, entry metadata "labels" = .map es := fun ⟨es, h⟩ => hno es h
      cases hitems : Conversion.items (entry metadata "labels") with
      | none => exact Verdict.misread (by simp [Fault.notIterable]) (by simp [hno])
      | some vs =>
        exact ((entriesOfItems_verdict 0 vs).andThen fun _ => ⟨_, rfl⟩).of_iff (by simp [hno])
          fun _ => Iff.rfl

/-- Metadata are asked for a name, and what has a name for its labels. -/
theorem metadata_verdict (es : List (Value × Value)) (typeName : String) (namespaced : Bool) :
    Verdict (Document.metadata typeName (.map es) namespaced)
      (Opens (under (.map es) ["metadata"]) ∧
        (Names (.map es) namespaced → Labelling (under (.map es) ["metadata", "labels"])))
      (Names (.map es) namespaced) := by
  -- A name is only found in metadata that are present.
  have hnamed : (under (.map es) ["metadata", "name"]).isTrue = true →
      (under (.map es) ["metadata"]).isTrue = true := by
    intro h
    cases hm : (under (.map es) ["metadata"]).isTrue with
    | true => rfl
    | false =>
      have hnull : under (.map es) ["metadata", "name"] = .null := entry_of_absent hm "name"
      rw [hnull] at h
      cases h
  unfold Document.metadata
  refine (Verdict.step (get_map es "metadata") (Verdict.guarded fun _ =>
    entry_verdict _ "name" (Verdict.guarded fun _ =>
      entry_verdict _ "namespace" (Verdict.guardedIf
        ((labels_verdict _).andThen fun _ => ⟨_, rfl⟩))))).of_iff ?_ fun _ => ?_
  · constructor
    · rintro ⟨hopens, hlabels⟩ hm
      exact ⟨hopens hm, fun hname => ⟨hopens hm, fun hns => ⟨hopens hm, hlabels ⟨hname, hns⟩⟩⟩⟩
    · intro h
      exact ⟨fun hm => (h hm).1, fun ⟨hname, hns⟩ => (((h (hnamed hname)).2 hname).2 hns).2⟩
  · exact ⟨fun hn => ⟨hnamed hn.1, hn.1, hn.2, trivial⟩, fun h => ⟨h.2.1, h.2.2.1⟩⟩

/-- The phase is looked for in a section of its own. -/
theorem phase_verdict (current : Value) :
    Verdict (Document.phase current) (Opens current ∧ Opens (entry current "phase")) True := by
  unfold Document.phase
  cases hp : current.isTrue with
  | false =>
    have hphase : (entry current "phase").isTrue = false := by
      rw [entry_of_absent hp]
      rfl
    exact Verdict.done (by simp [Opens, hp, hphase]) trivial
  | true =>
    exact (section_verdict current "phase" ((get_verdict _ "name" .null).bind fun _ _ =>
      (get_verdict _ "message" .null).andThen fun _ => ⟨_, rfl⟩)).of_iff
        (by simp [orElse_eq_map_iff, Opens, hp]) fun _ => by simp

/-- The phase is looked for in the current phase of a status. -/
theorem currentPhase_verdict {α : Type} {g : PhaseRecord → Except Fault α} {fit : Prop}
    (hg : ∀ r, Verdict (g r) fit True) (status : Value) :
    Verdict (Document.get status "currentPhase" >>= fun current => Document.phase current >>= g)
      ((∃ es, status = .map es) ∧ Opens (entry status "currentPhase") ∧
        Opens (entry (entry status "currentPhase") "phase") ∧ fit) True :=
  entry_verdict status "currentPhase" (((phase_verdict _).bind fun r _ => hg r).of_iff
    (by simp [and_assoc]) fun _ => by simp)

/-- An environment variable is asked for its name, which it must have. -/
theorem envVar_verdict (v : Value) :
    Verdict (Document.envVar v) (∃ es, v = .map es) (NamesVariable v) :=
  (entry_verdict v "name" (Verdict.guarded fun _ =>
    (get_verdict v "value" .null).andThen fun _ => ⟨_, rfl⟩)).of_iff (by tauto)
      fun _ => by simp [NamesVariable]

/-- The variables of a container are read up to the first one without a name. -/
theorem container_verdict (c : Value) :
    Verdict (Document.container c) (SoundContainer c) (CompleteContainer c) :=
  ((get_verdict c "name" _).bind fun _ _ => (get_verdict c "image" _).bind fun _ _ =>
    eachItem_verdict envVar_verdict (fun _ => ⟨_, rfl⟩) c "env").of_iff
      (by rw [soundContainer_iff]; tauto) fun _ => by simp [CompleteContainer]

/-- A default source is asked for the entry of its name, which nothing checks. -/
theorem hubSource_verdict (v : Value) :
    Verdict (Document.hubSource v) (HasKey v "name") True := by
  cases v with
  | map es =>
    simp only [Document.hubSource, HasKey, Document.find, Except.ok.injEq]
    cases Value.get? es "name" with
    | none => exact Verdict.misread (by simp) (by simp)
    | some w => exact Verdict.done ⟨w, rfl⟩ trivial
  | _ => exact Verdict.misread (by simp) (by simp [HasKey, Document.find])

/-! ### Reading the object of each kind -/

/-- The containers of a deployment, whatever stands there for them. -/
def workloadIn (doc : Value) : Value :=
  under doc ["spec", "template", "spec", "containers"]

/-- The default sources of a hub, whatever stands there for them. -/
def sourcesIn (doc : Value) : Value :=
  under doc ["spec", "sources"]

/-- The sections of a managed resource. -/
@[mk_iff]
structure SoundManaged (doc : Value) : Prop where
  spec : Opens (under doc ["spec"])
  status : Opens (under doc ["status"])
  current : Opens (under doc ["status", "currentPhase"])
  phase : Opens (under doc ["status", "currentPhase", "phase"])

/-- The sections of a deployment and its containers, up to the first one with a variable without a
name. -/
@[mk_iff]
structure SoundWorkload (doc : Value) : Prop where
  spec : Opens (under doc ["spec"])
  template : Opens (under doc ["spec", "template"])
  pod : Opens (under doc ["spec", "template", "spec"])
  listed : Lists (workloadIn doc)
  containers : SoundUpTo CompleteContainer SoundContainer (itemsOf (workloadIn doc))

/-- The section of a hub and its default sources, each of which must have the key of a name. -/
@[mk_iff]
structure SoundHub (doc : Value) : Prop where
  spec : Opens (under doc ["spec"])
  listed : Lists (sourcesIn doc)
  sources : ∀ s ∈ itemsOf (sourcesIn doc), HasKey s "name"

/-- What the document of each kind holds behind its metadata. -/
def SoundBody (doc : Value) : Prop :=
  if OfManagedKind doc then SoundManaged doc
  else if entry doc "kind" = .text Kind.deployment then SoundWorkload doc
  else if entry doc "kind" = .text Kind.proxy then Opens (under doc ["status"])
  else if entry doc "kind" = .text Kind.operatorHub then SoundHub doc
  else True

/-- Behind its metadata, only a deployment can lack what is checked. -/
def CompleteBody (doc : Value) : Prop :=
  entry doc "kind" = .text Kind.deployment → ∀ c ∈ itemsOf (workloadIn doc), CompleteContainer c

/-- Objects of these kinds have a namespace. -/
def Namespaced (doc : Value) : Prop :=
  OfManagedKind doc ∨ entry doc "kind" = .text Kind.deployment
  deriving Decidable

/-- The document has a kind and a version. -/
def Begun (doc : Value) : Prop :=
  (entry doc "kind").isTrue = true ∧ (entry doc "apiVersion").isTrue = true

/-- The version is of the domain that the kind calls for. -/
def OfDomain (doc : Value) : Prop :=
  ∀ d, domainOf? doc = some d → BeginsWith (entry doc "apiVersion") d

/-- The document says of which object it is. -/
structure Identified (doc : Value) : Prop where
  begun : Begun doc
  domain : OfDomain doc
  names : Names doc (decide (Namespaced doc))

/-- What the document is asked for can be asked of it, as far as the reading gets: no part that is
come to is of the wrong type, and no default source has no name. -/
structure Sound (doc : Value) : Prop where
  version : Begun doc → ∀ d, domainOf? doc = some d → ∃ s, entry doc "apiVersion" = .text s
  metadata : Begun doc → OfDomain doc → Opens (under doc ["metadata"])
  labels : Identified doc → Labelling (under doc ["metadata", "labels"])
  body : Identified doc → SoundBody doc

/-- The document has all that is checked. -/
structure Complete (doc : Value) : Prop where
  identified : Identified doc
  body : CompleteBody doc

/-- A document that has been begun is sound if it is so in its version, its metadata and its body. -/
theorem sound_iff {doc : Value} (hb : Begun doc) {namespaced : Bool}
    (hns : decide (Namespaced doc) = namespaced) :
    Sound doc ↔ (∀ d, domainOf? doc = some d → ∃ s, entry doc "apiVersion" = .text s) ∧
      (OfDomain doc → (Opens (under doc ["metadata"]) ∧ (Names doc namespaced →
        Labelling (under doc ["metadata", "labels"]))) ∧ (Names doc namespaced → SoundBody doc)) := by
  subst hns
  constructor
  · intro h
    exact ⟨h.version hb, fun hd => ⟨⟨h.metadata hb hd, fun hn => h.labels ⟨hb, hd, hn⟩⟩,
      fun hn => h.body ⟨hb, hd, hn⟩⟩⟩
  · rintro ⟨hversion, h⟩
    exact ⟨fun _ => hversion, fun _ hd => (h hd).1.1, fun hi => (h hi.domain).1.2 hi.names,
      fun hi => (h hi.domain).2 hi.names⟩

/-- It is complete if it is so in its domain, its names and its body. -/
theorem complete_iff {doc : Value} (hb : Begun doc) {namespaced : Bool}
    (hns : decide (Namespaced doc) = namespaced) :
    Complete doc ↔ OfDomain doc ∧ Names doc namespaced ∧ CompleteBody doc := by
  subst hns
  constructor
  · intro h
    exact ⟨h.identified.domain, h.identified.names, h.body⟩
  · rintro ⟨hd, hn, hbody⟩
    exact ⟨⟨hb, hd, hn⟩, hbody⟩

section

variable {es : List (Value × Value)}

/-- The document of a kind that is known by name is read from the version and the metadata on. -/
theorem framed_verdict {α : Type} {rest : Document.Metadata → Except Fault α} {domain : String}
    (typeName : String) {namespaced : Bool} (hb : Begun (.map es))
    (hd : domainOf? (.map es) = some domain) (hns : decide (Namespaced (.map es)) = namespaced)
    (hrest : ∀ m, Verdict (rest m) (SoundBody (.map es)) (CompleteBody (.map es))) :
    Verdict (Document.checkVersion (.map es) domain >>= fun _ =>
        Document.metadata typeName (.map es) namespaced >>= rest)
      (Sound (.map es)) (Complete (.map es)) := by
  refine ((checkVersion_verdict es domain).bind fun _ _ =>
    (metadata_verdict es typeName namespaced).bind fun m _ => hrest m).of_iff ?_ fun _ => ?_
  · rw [sound_iff hb hns]
    simp [OfDomain, hd, hb.2]
  · rw [complete_iff hb hns]
    simp [OfDomain, hd, hb.2]

/-- No cluster kind is a managed kind. -/
theorem OfClusterKind.not_managed {doc : Value} (h : OfClusterKind doc) : ¬OfManagedKind doc :=
  fun hm => hm.not_cluster h

/-- The cluster kinds stand in no namespace. -/
theorem OfClusterKind.not_namespaced {doc : Value} (h : OfClusterKind doc) : ¬Namespaced doc :=
  not_or.2 ⟨h.not_managed, h.ne_deployment⟩

/-- The cluster kinds belong to the domain of the configuration. -/
theorem OfClusterKind.domain {doc : Value} (h : OfClusterKind doc) :
    domainOf? doc = some Document.configDomain := by
  rw [domainOf?, if_neg h.not_managed, if_neg h.ne_deployment, if_pos h]

/-- The body of a managed kind is sound as its specification and status are. -/
theorem soundBody_of_managed {doc : Value} (h : OfManagedKind doc) :
    SoundBody doc ↔ SoundManaged doc :=
  iff_of_eq (if_pos h)

/-- Only the body of a deployment can be incomplete. -/
theorem completeBody_of_ne {doc : Value} (h : entry doc "kind" ≠ .text Kind.deployment) :
    CompleteBody doc :=
  fun hk => absurd hk h

/-- The entries of the specification and the status of a managed resource are read as they are. -/
theorem operatorSource_verdict (hb : Begun (.map es)) (hk : OfManagedKind (.map es)) :
    Verdict (Document.operatorSource (.map es)) (Sound (.map es)) (Complete (.map es)) := by
  unfold Document.operatorSource
  refine framed_verdict "OperatorSource" hb (if_pos hk) (decide_eq_true (.inl hk)) fun m => ?_
  refine Verdict.of_iff (section_verdict _ "spec" (section_verdict _ "status"
    ((get_verdict _ "type" _).bind fun _ _ => (get_verdict _ "endpoint" _).bind fun _ _ =>
    (get_verdict _ "registryNamespace" _).bind fun _ _ => (get_verdict _ "displayName" _).bind
    fun _ _ => (get_verdict _ "publisher" _).bind fun _ _ => currentPhase_verdict (fun _ =>
    (get_verdict _ "packages" _).andThen fun _ => ⟨_, rfl⟩) _))) ?_ ?_
  · rw [soundBody_of_managed hk, soundManaged_iff]
    simp only [orElse_eq_map_iff, entry_orElse, under, List.foldl_cons, List.foldl_nil]
    tauto
  · simp [completeBody_of_ne hk.ne_deployment]

/-- So are those of a catalog source config. -/
theorem catalogSourceConfig_verdict (hb : Begun (.map es)) (hk : OfManagedKind (.map es)) :
    Verdict (Document.catalogSourceConfig (.map es)) (Sound (.map es)) (Complete (.map es)) := by
  unfold Document.catalogSourceConfig
  refine framed_verdict "CatalogSourceConfig" hb (if_pos hk) (decide_eq_true (.inl hk)) fun m => ?_
  refine Verdict.of_iff (section_verdict _ "spec" (section_verdict _ "status"
    ((get_verdict _ "targetNamespace" _).bind fun _ _ => (get_verdict _ "packages" _).bind
    fun _ _ => (get_verdict _ "csDisplayName" _).bind fun _ _ => (get_verdict _ "csPublisher" _).bind
    fun _ _ => (get_verdict _ "source" _).bind fun _ _ => currentPhase_verdict
    (fun _ => Verdict.done trivial trivial) _))) ?_ ?_
  · rw [soundBody_of_managed hk, soundManaged_iff]
    simp only [orElse_eq_map_iff, entry_orElse, under, List.foldl_cons, List.foldl_nil]
    tauto
  · simp [completeBody_of_ne hk.ne_deployment]

/-- The containers of a deployment lie three sections deep. -/
theorem deployment_verdict (hb : Begun (.map es))
    (hk : entry (.map es) "kind" = .text Kind.deployment) :
    Verdict (Document.deployment (.map es)) (Sound (.map es)) (Complete (.map es)) := by
  have hmanaged : ¬OfManagedKind (.map es) := fun h => h.ne_deployment hk
  have hdomain : domainOf? (.map es) = some Document.appsDomain := by
    rw [domainOf?, if_neg hmanaged, if_pos hk]
  unfold Document.deployment
  refine framed_verdict "Deployment" hb hdomain (decide_eq_true (.inr hk)) fun m => ?_
  refine (section_verdict _ "spec" (section_verdict _ "template" (section_verdict _ "spec"
    (eachItem_verdict container_verdict (fun _ => ⟨_, rfl⟩) _ "containers")))).of_iff ?_ ?_
  · rw [SoundBody, if_neg hmanaged, if_pos hk, soundWorkload_iff]
    simp [orElse_eq_map_iff, entry_orElse, under, workloadIn]
  · simp [CompleteBody, hk, entry_orElse, under, workloadIn]

/-- The reading of a child ends properly exactly if its document is sound. -/
theorem childObject_verdict (hb : Begun (.map es)) (hdomain : domainOf? (.map es) = none)
    (hns : ¬Namespaced (.map es)) (hbody : SoundBody (.map es)) :
    Verdict (Document.childObject (.map es)) (Sound (.map es)) (Complete (.map es)) := by
  have hne : entry (.map es) "kind" ≠ .text Kind.deployment := fun hk => hns (.inr hk)
  unfold Document.childObject
  refine (Verdict.step (get_map es "kind") (Verdict.guarded fun _ =>
    (metadata_verdict es "ChildObject" false).andThen fun _ => ⟨_, rfl⟩)).of_iff ?_ fun _ => ?_
  · rw [sound_iff hb (decide_eq_false hns)]
    simp [hdomain, OfDomain, hb.1, hbody]
  · rw [complete_iff hb (decide_eq_false hns)]
    simp [hdomain, OfDomain, hb.1, completeBody_of_ne hne]

/-- So does that of the cluster proxy. -/
theorem clusterProxy_verdict (hb : Begun (.map es))
    (hk : entry (.map es) "kind" = .text Kind.proxy) :
    Verdict (Document.clusterProxy (.map es)) (Sound (.map es)) (Complete (.map es)) := by
  have hcluster : OfClusterKind (.map es) := .inl hk
  unfold Document.clusterProxy
  refine framed_verdict "ClusterProxy" hb hcluster.domain (decide_eq_false hcluster.not_namespaced)
    fun m => ?_
  refine (section_verdict _ "status" ((get_verdict _ "httpProxy" _).bind fun _ _ =>
    (get_verdict _ "httpsProxy" _).bind fun _ _ =>
    (get_verdict _ "noProxy" _).andThen fun _ => ⟨_, rfl⟩)).of_iff ?_ ?_
  · rw [SoundBody, if_neg hcluster.not_managed, if_neg hcluster.ne_deployment, if_pos hk]
    simp [orElse_eq_map_iff, under]
  · simp [completeBody_of_ne hcluster.ne_deployment]

/-- So does that of the operator hub. -/
theorem operatorHub_verdict (hb : Begun (.map es))
    (hk : entry (.map es) "kind" = .text Kind.operatorHub) :
    Verdict (Document.operatorHub (.map es)) (Sound (.map es)) (Complete (.map es)) := by
  have hcluster : OfClusterKind (.map es) := .inr hk
  have hproxy : entry (.map es) "kind" ≠ .text Kind.proxy := by
    rw [hk]
    decide
  unfold Document.operatorHub
  refine framed_verdict "OperatorHub" hb hcluster.domain (decide_eq_false hcluster.not_namespaced)
    fun m => ?_
  refine (section_verdict _ "spec" (eachItem_verdict hubSource_verdict (fun _ => ⟨_, rfl⟩) _
    "sources")).of_iff ?_ ?_
  · rw [SoundBody, if_neg hcluster.not_managed, if_neg hcluster.ne_deployment, if_neg hproxy,
      if_pos hk, soundHub_iff]
    simp [orElse_eq_map_iff, entry_orElse, under, sourcesIn, soundUpTo_true]
  · simp [completeBody_of_ne hcluster.ne_deployment]

end

/-! ### Documents -/

/-- Without a kind or a version nothing else is looked at. -/
theorem sound_of_not_begun {doc : Value} (h : ¬Begun doc) : Sound doc :=
  ⟨fun hb => absurd hb h, fun hb => absurd hb h, fun hi => absurd hi.begun h,
    fun hi => absurd hi.begun h⟩

/-- A document is read properly exactly if it is sound, and has an object if it is complete too. The
kinds are tried one after the other. -/
theorem ofDocument?_verdict (es : List (Value × Value)) :
    Verdict (Manifest.ofDocument? (.map es)) (Sound (.map es)) (Complete (.map es)) := by
  unfold Manifest.ofDocument?
  refine (Verdict.step (get_map es "kind") (Verdict.guarded fun hkind =>
    Verdict.step (get_map es "apiVersion") (Verdict.guarded fun hversion =>
      (?_ : Verdict _ (Sound (.map es)) (Complete (.map es)))))).of_iff ?_ fun _ => ?_
  · have hb : Begun (.map es) := ⟨hkind, hversion⟩
    simp only [beq_iff_eq]
    refine Verdict.choice (fun hk => (operatorSource_verdict hb (.inl hk)).map) fun hsource =>
      Verdict.choice (fun hk => (catalogSourceConfig_verdict hb (.inr hk)).map) fun hcatalog =>
      Verdict.choice (fun hk => (deployment_verdict hb hk).map) fun hdeployment =>
      Verdict.choice (fun hk => (clusterProxy_verdict hb hk).map) fun hproxy =>
      Verdict.choice (fun hk => (operatorHub_verdict hb hk).map) fun hhub => ?_
    -- What is left is a child.
    have hmanaged : ¬OfManagedKind (.map es) := not_or.2 ⟨hsource, hcatalog⟩
    have hcluster : ¬OfClusterKind (.map es) := not_or.2 ⟨hproxy, hhub⟩
    refine (childObject_verdict hb ?_ (not_or.2 ⟨hmanaged, hdeployment⟩) ?_).map
    · rw [domainOf?, if_neg hmanaged, if_neg hdeployment, if_neg hcluster]
    · rw [SoundBody, if_neg hmanaged, if_neg hdeployment, if_neg hproxy, if_neg hhub]
      trivial
  · constructor
    · exact fun h _ _ => h
    · intro h
      by_cases hb : Begun (.map es)
      · exact h hb.1 hb.2
      · exact sound_of_not_begun hb
  · exact ⟨fun h => ⟨h.identified.begun.1, h.identified.begun.2, h⟩, fun h => h.2.2⟩

/-- The reading of a document ends in an object or in a refusal exactly if the document is sound. It
ends in an object if the document is complete as well. -/
theorem refuses_document_iff (es : List (Value × Value)) :
    (((∃ m, Manifest.ofDocument? (.map es) = .ok m) ∨
        ∃ problem, Manifest.ofDocument? (.map es) = .error (.malformedDocument problem)) ↔
      Sound (.map es)) ∧
    ((∃ m, Manifest.ofDocument? (.map es) = .ok m) ↔ Sound (.map es) ∧ Complete (.map es)) :=
  ⟨(ofDocument?_verdict es).reported, (ofDocument?_verdict es).read⟩

/-- A hub with a default source that has no name. -/
def namelessSource : List (Value × Value) :=
  [(.text "apiVersion", .text "config.openshift.io/v1"), (.text "kind", .text Kind.operatorHub),
    (.text "metadata", .map [(.text "name", .text "cluster")]),
    (.text "spec", .map [(.text "sources", .list [.map []])])]

/-- A default source without a name is not refused. -/
theorem not_refuses_nameless_source :
    ¬((∃ m, Manifest.ofDocument? (.map namelessSource) = .ok m) ∨
      ∃ problem,
        Manifest.ofDocument? (.map namelessSource) = .error (.malformedDocument problem)) := by
  have hread : Manifest.ofDocument? (.map namelessSource) =
      .error (.missingKey (.text "name")) := rfl
  simp [hread]

end CatalogOperator.Proofs.Manifest
