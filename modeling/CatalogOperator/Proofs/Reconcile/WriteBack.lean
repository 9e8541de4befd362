import CatalogOperator.Proofs.Reconcile.Call

/-!
# `CatalogOperator.Proofs.Reconcile.WriteBack`: external updates during a reconcile

A reconcile writes back the whole resource it worked on, and that is a copy of what it read. An
update from outside that falls between the read and the write is therefore undone as soon as there
is anything to write: not only the status is written, but the specification and the labels as they
were read.

* `Interrupted`: a reconcile that sleeps while its object is updated from outside.
* `Overwrites`: the outcomes that undo the update.
* `survives_iff`: the specification and the labels of the update are kept exactly if the outcome is
  none of these.
* `not_survives`: a catalog source config whose packages are changed while it is being configured
  goes back to the former packages.
-/

set_option autoImplicit false

namespace CatalogOperator.Proofs.Reconcile

section

variable {δ Spec Packages : Type} [ManagedKind Spec Packages] [ManagedContent Spec]
  {K : ObjectKey} {d : Dispatcher (Shared δ) (Managed Spec Packages)} {deleted : DeletionHook δ}
  {r external : Managed Spec Packages} {s t u : Shared δ} {result : Except Fault Bool}

/-- Whether the stored resource agrees with an external update on what the user decides. -/
def Survives (K : ObjectKey) (external : Managed Spec Packages) (t : Shared δ) : Prop :=
  ∃ stored : Managed Spec Packages, objectAt K t = some stored.toManifest ∧
    stored.SameIntent external

/-- A reconcile of a key that reads a resource and ends at a state with a result. While it sleeps
others do anything, then the object is updated from outside, and from then on nobody else writes
it. -/
inductive Interrupted (d : Dispatcher (Shared δ) (Managed Spec Packages))
    (deleted : DeletionHook δ) (K : ObjectKey) (s : Shared δ) (r external : Managed Spec Packages)
    (t : Shared δ) (result : Except Fault Bool) : Prop
  | intro {s' asleep before woken : Shared δ} {cluster : Cluster δ} {seconds : Rat}
      {resume : Wake → Shared δ → Run (Shared δ) (Except Fault Bool)} (w : Wake)
      (read : Reads K s r s')
      (sleeps : Run.Leads (fun _ _ => True) ((reconcile d deleted K).run s)
        (.asleep asleep seconds resume))
      (updated : Call.runOn (Cluster.update external.toManifest) before.cluster =
        (cluster, .ok ()))
      (wakes : SameAt K { before with cluster } woken)
      (ends : Run.Leads (SameAt K) (resume w woken) (.finished t result))

/-- Whether a reconcile that read a resource undoes an external update when it finishes with an
outcome at a state: it ends well, the settled resource differs from what was read and has the key,
and it does not agree with the update on what the user decides. -/
structure Overwrites (K : ObjectKey) (r external : Managed Spec Packages) (u : Shared δ)
    (o : Outcome (Managed Spec Packages)) (result : Except Fault Bool) : Prop where
  ends : ∃ b, result = .ok b
  differs : (o.settle u.cluster.clock).1.toManifest.same r.toManifest = false
  key : o.resource.key = K
  intent : ¬ o.resource.SameIntent external

/-- Settling leaves to the user what the user decides. -/
theorem settle_sameIntent (o : Outcome (Managed Spec Packages)) (clock : Clock) :
    (o.settle clock).1.SameIntent external ↔ o.resource.SameIntent external := by
  rw [settle_eq]
  rfl

/-- After an update that succeeded, the object under the key of what was written agrees with it. -/
theorem survives_update {before : Shared δ} {cluster : Cluster δ} (hK : external.key = K)
    (h : Call.runOn (Cluster.update external.toManifest) before.cluster = (cluster, .ok ())) :
    Survives K external { before with cluster } := by
  rcases Cluster.update_cases external.toManifest before.cluster with
    ⟨f, hf, -⟩ | ⟨key, existing, hkey, hfound, -, ho⟩
  · rw [h] at hf
    cases hf
  · rw [h] at ho
    rw [keyOf_eq_ok hkey, hK] at hfound ho
    -- An update by an equal object is not stored, but what stands there agrees with it.
    unfold Survives objectAt
    rw [show cluster.store.objects = _ from ho]
    split
    · rename_i hsame
      obtain ⟨stored, rfl⟩ := Managed.exists_of_same hsame
      exact ⟨stored, hfound, Managed.sameIntent_of_same hsame⟩
    · exact ⟨external, Table.find?_insert_self _ _ _, .refl external⟩

/-- An outcome that overwrites an external update leaves its own resource under the key. -/
theorem objectAt_of_overwrites {o : Outcome (Managed Spec Packages)}
    (hu : Survives K external u) (h : finish r (.ok o) u = .finished t result)
    (hover : Overwrites K r external u o result) :
    objectAt K t = some (o.settle u.cluster.clock).1.toManifest := by
  obtain ⟨stored, hat, hintent⟩ := hu
  rcases finish_cases h with ⟨hsame, -, -⟩ | ⟨f, -, hf, -⟩ | ⟨existing, -, -, hfound, ho⟩
  · rw [hover.differs] at hsame
    cases hsame
  · obtain ⟨b, hb⟩ := hover.ends
    rw [hf] at hb
    cases hb
  · rw [settle_key, hover.key] at hfound ho
    have heq : existing = stored.toManifest := Option.some.inj (hfound.symm.trans hat)
    -- An equal object would agree with the outcome as well as with the update.
    have hne : existing.same (o.settle u.cluster.clock).1.toManifest ≠ true := by
      intro hsame
      rw [heq] at hsame
      have hagree := (Managed.sameIntent_of_same hsame).symm.trans hintent
      exact hover.intent ((settle_sameIntent o _).1 hagree)
    unfold objectAt
    rw [ho, if_neg hne, Table.find?_insert_self]

/-- What stands under the key when a reconcile finishes is kept exactly if the outcome does not
overwrite it. -/
theorem survives_finish_iff {x : Except Fault (Outcome (Managed Spec Packages))}
    (hu : Survives K external u) (h : finish r x u = .finished t result) :
    Survives K external t ↔ ¬ ∃ o, x = .ok o ∧ Overwrites K r external u o result := by
  constructor
  · rintro ⟨stored, hat, hagree⟩ ⟨o, rfl, hover⟩
    rw [stored_unique hat (objectAt_of_overwrites hu h hover), settle_sameIntent] at hagree
    exact hover.intent hagree
  · intro hnot
    have kept : SameAt K u t → Survives K external t := by
      intro hs
      obtain ⟨stored, hat, hintent⟩ := hu
      exact ⟨stored, hs.trans hat, hintent⟩
    cases x with
    | error f =>
      cases h
      exact kept rfl
    | ok o =>
      rcases finish_objectAt h K with hs | ⟨hk, hne, hb, hat⟩
      · exact kept hs
      · -- The outcome was written, so it must agree with the update.
        rw [settle_key] at hk
        refine ⟨_, hat, (settle_sameIntent o _).2 (Classical.byContradiction fun hi => ?_)⟩
        exact hnot ⟨o, rfl, ⟨_, hb⟩, hne, hk, hi⟩

/-- Whatever the handlers do, as long as they leave the object itself alone: the specification and
the labels of an external update that falls between the read and the write of a reconcile are kept
exactly if the outcome of the dispatch does not overwrite them. -/
theorem survives_iff (hd : ∀ r, (d.dispatch [] r).Keeps (objectAt K) fun _ => True)
    (hK : external.key = K) (h : Interrupted d deleted K s r external t result) :
    ∃ s' u x, Reads K s r s' ∧
      Run.Leads (fun _ _ => True) (d.dispatch [] r s') (.finished u x) ∧
      finish r x u = .finished t result ∧
      (Survives K external t ↔ ¬ ∃ o, x = .ok o ∧ Overwrites K r external u o result) := by
  obtain ⟨w, read, sleeps, updated, wakes, ends⟩ := h
  rename_i s' asleep before woken cluster seconds resume
  rw [reconcile_run_of_reads read] at sleeps
  rcases Run.leads_bind sleeps with ⟨_, _, rest, hl, hc⟩ | ⟨v, x, -, hfin⟩
  · cases hc
    obtain ⟨u, x, hx, hf⟩ := Run.leads_bind_finished ends
    obtain ⟨t', result', hfin⟩ := finish_eq r x u
    rw [hfin] at hf
    cases Run.leads_finished hf
    -- From the update on, neither others nor the handler write the object.
    obtain ⟨_, hasleep⟩ := (hd r s').of_leads hl
    have hu : SameAt K { before with cluster } u :=
      ((hasleep.2 w woken).view_eq_of_leads hx).trans wakes
    obtain ⟨stored, hat, hintent⟩ := survives_update hK updated
    refine ⟨s', u, x, read, hl.trans (.woken w trivial (hx.mono fun _ _ _ => trivial)), hfin, ?_⟩
    exact survives_finish_iff ⟨stored, hu.trans hat, hintent⟩ hfin
  · -- Finishing never sleeps, so the update cannot fall into it.
    obtain ⟨t', result', hfin'⟩ := finish_eq r x v
    rw [hfin'] at hfin
    cases Run.leads_finished hfin

end

/-! ### An update that is undone -/

/-- A deployer that takes five seconds. -/
def pausing {δ : Type} : Deployer δ where
  ensure _ r c := .asleep c 5 fun _ c' => .finished c' (r, .ok ())
  populate r c := (c, r, .ok ())

/-- The deployer leaves every object alone. -/
theorem spares_pausing {δ : Type} (K : ObjectKey) : Spares (pausing : Deployer δ) K where
  ensure _ _ _ := ⟨rfl, fun _ _ => ⟨rfl, trivial⟩⟩
  populate _ _ := rfl

/-- A catalog source config that is being configured. -/
def underway : CatalogSourceConfig where
  name := .text "c"
  ns := .text "openshift-marketplace"
  spec := { targetNamespace := .text "t", packages := .text "p" }
  phase := { name := .text Phase.configuring.text }
  packages := []

/-- The same one with other packages. -/
def repackaged : CatalogSourceConfig :=
  { underway with spec := { underway.spec with packages := .text "q" } }

/-- The user has decided on other packages. -/
theorem not_sameIntent_repackaged : ¬ underway.SameIntent repackaged := by
  intro h
  have hspec : underway.spec.content.same repackaged.spec.content = true := h.2
  simp [CatalogSpec.content, underway, repackaged, Value.same_text_iff] at hspec

/-- What the configuring of the former comes out as. -/
def completed : Outcome CatalogSourceConfig where
  resource := underway
  next := some (.into .succeeded)

/-- The packages are changed while the deployer is at work on the former ones. -/
theorem interrupted_underway : ∃ u t : Shared Unit,
    Survives underway.key repackaged u ∧
      finish underway (.ok completed) u = .finished t (.ok false) ∧
      Interrupted (Catalog.dispatcher pausing none) Controller.forgetCopy underway.key
        (holding underway ()) underway repackaged t (.ok false) := by
  let s : Shared Unit := holding underway ()
  let asleep : Shared Unit :=
    { s with lastKnownGood := s.lastKnownGood.insert underway.key underway }
  let updated := Call.runOn (Cluster.update repackaged.toManifest) asleep.cluster
  let woken : Shared Unit := { asleep with cluster := updated.1 }
  have hread : Reads underway.key s underway s := reads_holding () rfl
  have hat : objectAt repackaged.key asleep = some underway.toManifest :=
    objectAt_holding underway ()
  have hupdated : updated = (updated.1, .ok ()) :=
    Prod.ext rfl (Cluster.update_of_clear rfl (keyOf_of_usable rfl) hat)
  have hsurvives : Survives underway.key repackaged woken := survives_update rfl hupdated
  -- The reconcile meets no outage when it writes back, so that it ends well.
  have hclear : woken.cluster.store.outages = [] := by
    show updated.1.store.outages = []
    rw [(Cluster.runOn_update _ _).1]
    exact Store.outages_update_of_clear rfl _
  have ⟨stored, hstored, _⟩ := hsurvives
  obtain ⟨t, hfin⟩ := finish_of_clear (r := underway) (o := completed) hclear rfl hstored
  refine ⟨woken, t, hsurvives, hfin, ?_⟩
  have hsleeps : Run.Leads (fun _ _ => True) ((reconcile (Catalog.dispatcher pausing none)
      Controller.forgetCopy underway.key).run s)
      (.asleep asleep 5 fun _ s' => finish underway (.ok completed) s') := by
    rw [reconcile_run_of_reads hread]
    exact .here _
  have hends : Run.Leads (SameAt underway.key) (finish underway (.ok completed) woken)
      (.finished t (.ok false)) := by
    rw [hfin]
    exact .here _
  exact .intro .elapsed hread hsleeps hupdated rfl hends

/-- What becomes of the other packages depends on whether the outcome overwrites them. -/
theorem survives_iff_underway : ∃ t : Shared Unit,
    Interrupted (Catalog.dispatcher pausing none) Controller.forgetCopy underway.key
        (holding underway ()) underway repackaged t (.ok false) ∧
      ∃ u x, finish underway x u = .finished t (.ok false) ∧
        (Survives underway.key repackaged t ↔
          ¬ ∃ o, x = .ok o ∧ Overwrites underway.key underway repackaged u o (.ok false)) := by
  obtain ⟨_, t, -, -, h⟩ := interrupted_underway
  have hd : ∀ r : CatalogSourceConfig,
      ((Catalog.dispatcher (pausing : Deployer Unit) none).dispatch [] r).Keeps
        (objectAt underway.key) fun _ => True :=
    fun r => (keeps_dispatch (spares_pausing _) (.catalog none) [] r).mono fun _ _ => trivial
  have hK : repackaged.key = underway.key := rfl
  obtain ⟨_, u, x, -, -, hfin, hiff⟩ := survives_iff hd hK h
  exact ⟨t, h, u, x, hfin, hiff⟩

/-- The other packages do not survive: the former ones are written back. -/
theorem not_survives :
    ¬ ∀ (D : Deployer Unit) (limit : Option Deadline) (K : ObjectKey) (s t : Shared Unit)
      (r external : CatalogSourceConfig) (result : Except Fault Bool),
      Spares D K → external.key = K →
      Interrupted (Catalog.dispatcher D limit) Controller.forgetCopy K s r external t result →
      Survives K external t := by
  intro h
  obtain ⟨u, t, hu, hfin, hinterrupted⟩ := interrupted_underway
  -- The outcome is in another phase than what was read, so it is written.
  have hdiffers :
      (completed.settle u.cluster.clock).1.toManifest.same underway.toManifest = false := by
    obtain ⟨hname, hmsg⟩ := settle_of_some (o := completed) rfl u.cluster.clock
    rw [Bool.eq_false_iff]
    intro hsame
    rw [Manifest.same_comm] at hsame
    exact absurd (Managed.phase_of_same hsame hname hmsg).1 (by decide)
  have hsurvives : Survives underway.key repackaged t :=
    h pausing none underway.key _ t underway repackaged _ (spares_pausing _) rfl hinterrupted
  exact (survives_finish_iff hu hfin).1 hsurvives
    ⟨completed, rfl, ⟨_, rfl⟩, hdiffers, rfl, not_sameIntent_repackaged⟩

end CatalogOperator.Proofs.Reconcile
