import CatalogOperator.Proofs.Reconcile.Lifecycle
import CatalogOperator.Proofs.Reconcile.WriteBack

/-!
# `CatalogOperator.Proofs.Reconcile.Attempt`: what an attempt to configure leaves behind

An attempt to configure a resource works on a copy of it. When the attempt fails, the resource should
be stored as it was, with nothing but the message of its phase and the time of the last update to
tell of the failure. This depends on what becomes of the copy on each way out of the attempt.

* `Attempted`: all that the dispatch of such a resource may come out as, for a deployer that leaves
  what it ensures as it is and fills in nothing but packages.
* `attempted_of_leads`: what stands under the key after the reconcile.
* `attempt_reports_iff`: an attempt that does not succeed only reports, unless a store call failed
  after packages had been filled in. They are stored then, although the attempt has failed.
-/

set_option autoImplicit false

namespace CatalogOperator.Proofs.Reconcile

section

variable {δ Spec Packages : Type} {D : Deployer δ} {K : ObjectKey}

/-- A deployer that leaves what it ensures as it is, and fills in nothing but packages. It may fail
at any point. -/
structure Confined (D : Deployer δ) : Prop where
  ensure : ∀ trace r, (D.ensure trace r).Keeps (fun _ => ()) fun x => x.1 = r
  populate : ∀ r c, ∃ packages, (D.populate r c).2.1 = { r with packages }

/-- Whether a resource differs from what it was in the message of its phase and the time of its last
update at most. -/
def OnlyReported (r r' : Managed Spec Packages) : Prop :=
  r' = { r with phase := { r.phase with
    message := r'.phase.message, lastUpdate := r'.phase.lastUpdate } }

/-- A resource as a failed attempt would report on it. -/
def reported (out : Managed Spec Packages) (f : Fault) (at? : Option Moment) :
    Managed Spec Packages :=
  { out with phase := { out.phase with message := .text f.message, lastUpdate := at? } }

/-- A resource that has not changed differs in nothing. -/
theorem onlyReported_refl (r : Managed Spec Packages) : OnlyReported r r :=
  rfl

/-- A failed attempt reports in the message and the time of the update only. -/
theorem onlyReported_reported (r : Managed Spec Packages) (f : Fault) (at? : Option Moment) :
    OnlyReported r (reported r f at?) :=
  rfl

/-- A failure is reported in the phase that the resource is in already. -/
theorem exists_settle_eq_reported {o : Outcome (Managed Spec Packages)} {f : Fault}
    (hnext : o.next = some (.into .configuring f.message))
    (h : o.resource.phase.name = .text Phase.configuring.text) (clock : Clock) :
    ∃ at?, (o.settle clock).1 = reported o.resource f at? := by
  unfold Outcome.settle
  rw [hnext]
  dsimp only
  split
  · next hagrees =>
    -- The message is there already.
    rw [PhaseRecord.agrees, Bool.and_eq_true, beq_iff_eq, beq_iff_eq] at hagrees
    have hmsg : .text f.message = o.resource.phase.message := hagrees.2.symm
    exact ⟨o.resource.phase.lastUpdate, by rw [reported, hmsg]⟩
  · next hagrees =>
    refine ⟨some clock.read.1, ?_⟩
    rw [PhaseRecord.advance, if_neg hagrees]
    simp only [reported, Transition.into, h, beq_self_eq_true, if_true]

/-! ### The dispatch of a resource that is being configured -/

/-- The outcome of an attempt that has failed and is made again. -/
def retrying (out : Managed Spec Packages) (f : Fault) : Outcome (Managed Spec Packages) where
  resource := out
  next := some (.into .configuring f.message)
  error := some f

/-- What an attempt may come out as. `spills` says with which copies it may fail other than with the
resource itself. -/
inductive Attempted (spills : Managed Spec Packages → Fault → Prop) (r : Managed Spec Packages) :
    Except Fault (Outcome (Managed Spec Packages)) → Prop
  /-- The attempt ends in a fault. -/
  | fault (f : Fault) : Attempted spills r (.error f)
  /-- The registry resources are there. -/
  | configured (out : Managed Spec Packages) :
      Attempted spills r (.ok { resource := out, next := some (.into .succeeded) })
  /-- The attempt has failed and is made again, with the resource as it was. -/
  | retried (f : Fault) : Attempted spills r (.ok (retrying r f))
  /-- The attempt has failed and is made again, with a copy that was changed. -/
  | spilled (out : Managed Spec Packages) (f : Fault) : spills out f →
      Attempted spills r (.ok (retrying out f))

/-- Whether packages may have been filled in like this before a store call failed. -/
def PartlyFilled (D : Deployer δ) (r out : CatalogSourceConfig) (f : Fault) : Prop :=
  ∃ c c', D.populate r c = (c', out, .error f) ∧ f.isStoreFailure = true

variable [ManagedKind Spec Packages] {r out : Managed Spec Packages}
  {d : Dispatcher (Shared δ) (Managed Spec Packages)}
  {spills : Managed Spec Packages → Fault → Prop}

/-- A failure that the handler does not answer itself ends in a fault or is answered by the
dispatcher, which takes the copy as it is. -/
theorem attempted_error (h : r.phase.name = .text Phase.configuring.text) {f : Fault}
    (hout : out = r ∨ (f.isStoreFailure = true → spills out f)) (expired : Bool) :
    Attempted spills r (d.conclude r out (.error f) expired) := by
  rcases conclude_error d r out expired f with ⟨g, hg⟩ | ⟨hf, hg⟩
  · rw [hg]
    exact .fault g
  · have hin : r.phase.isIn .succeeded = false := by
      rw [PhaseRecord.isIn, h]
      rfl
    rw [hg, hin, if_neg Bool.false_ne_true, h]
    rcases hout with rfl | hout
    · exact .retried f
    · exact .spilled out f (hout hf)

/-- An attempt on an operator source never fails with a changed copy: the deployer works on the
derived catalog. -/
theorem attempted_source_configure (hD : Spares D K) {r : OperatorSource}
    {d : Dispatcher (Shared δ) OperatorSource} (h : r.phase.name = .text Phase.configuring.text)
    (trace : Trace) :
    (Source.configure D trace r).Keeps (objectAt K) fun x =>
      ∀ expired, Attempted (fun _ _ => False) r (d.conclude r x.1 x.2 expired) := by
  refine .bind (keeps_recordPackages r) fun packages _ => ?_
  refine .bind (keeps_ensure hD trace _) fun x _ => ?_
  obtain ⟨derived, ensured⟩ := x
  cases ensured with
  | error f =>
    dsimp only
    split
    · exact .pure fun expired => attempted_error h (.inl rfl) expired
    · exact .bind (keeps_track r f) fun _ _ => .pure fun _ => .retried f
  | ok _ =>
    refine .bind (keeps_populate hD derived) fun x _ => ?_
    obtain ⟨_, populated⟩ := x
    cases populated with
    | error f => exact .pure fun expired => attempted_error h (.inl rfl) expired
    | ok _ => exact .bind (keeps_untrack r) fun _ _ => .pure fun _ => .configured _

/-- An attempt on a catalog source config fails with a changed copy only if packages have been
filled in. -/
theorem attempted_catalog_configure (hD : Spares D K) (hC : Confined D) {r : CatalogSourceConfig}
    {d : Dispatcher (Shared δ) CatalogSourceConfig}
    (h : r.phase.name = .text Phase.configuring.text) (trace : Trace) :
    (Catalog.configure D trace r).Keeps (objectAt K) fun x =>
      ∀ expired, Attempted (PartlyFilled D r) r (d.conclude r x.1 x.2 expired) := by
  refine .bind (keeps_remember r) fun _ _ => ?_
  refine .bind (keeps_onCluster ((hD.ensure trace r).and (hC.ensure trace r))) fun x hx => ?_
  obtain ⟨out, ensured⟩ := x
  obtain rfl : out = r := hx.2
  cases ensured with
  | error f =>
    dsimp only
    split
    · exact .pure fun expired => attempted_error h (.inl rfl) expired
    · exact .pure fun _ => .retried f
  | ok _ =>
    -- What comes out of the filling in is kept in view, because the dispatcher may take it over.
    have hfill : (Shared.populate D out).Keeps (objectAt K) fun y =>
        ∃ c c', D.populate out c = (c', y) :=
      keeps_onCluster (Activity.Keeps.step fun c => ⟨hD.populate out c, c, _, rfl⟩)
    refine .bind hfill fun y hy => ?_
    obtain ⟨filled, populated⟩ := y
    cases populated with
    | error f =>
      obtain ⟨c, c', hpop⟩ := hy
      exact .pure fun expired => attempted_error h (.inr fun hf => ⟨c, c', hpop, hf⟩) expired
    | ok _ => exact .pure fun _ => .configured filled

/-- A dispatch comes out as an attempt if the handler of resources that are being configured does. -/
theorem attempted_dispatch (h : r.phase.name = .text Phase.configuring.text)
    (hh : ∀ name rec, d.table.find? name = some rec → rec.phase = Phase.configuring.text → ∀ trace,
      (rec.handle trace r).Keeps (objectAt K) fun x =>
        ∀ expired, Attempted spills r (d.conclude r x.1 x.2 expired)) :
    (d.dispatch [] r).Keeps (objectAt K) (Attempted spills r) := by
  refine keeps_dispatch_of_handler .fault (fun name rec hrec hphase trace => ?_) []
  exact hh name rec hrec (Value.text.inj (hphase.symm.trans h)) trace

/-! ### What stands under the key afterwards -/

/-- After an attempt the resource has succeeded, or it only reports, or the attempt has failed with a
changed copy, which now stands under the key. -/
theorem attempted_of_leads {deleted : DeletionHook δ} {s t : Shared δ} {result : Except Fault Bool}
    (hat : objectAt K s = some r.toManifest) (hp : r.phase.name = .text Phase.configuring.text)
    (hs : ∀ out f, spills out f → out.phase = r.phase)
    (hd : (d.dispatch [] r).Keeps (objectAt K) (Attempted spills r))
    (h : Run.Leads (SameAt K) ((reconcile d deleted K).run s) (.finished t result)) :
    ∃ r' : Managed Spec Packages, objectAt K t = some r'.toManifest ∧
      (r'.phase.name = .text Phase.succeeded.text ∨ OnlyReported r r' ∨
        ∃ out f at?, spills out f ∧ r' = reported out f at?) := by
  have unchanged : ∀ {u : Shared δ}, SameAt K s u → ∃ r' : Managed Spec Packages,
      objectAt K u = some r'.toManifest ∧
        (r'.phase.name = .text Phase.succeeded.text ∨ OnlyReported r r' ∨
          ∃ out f at?, spills out f ∧ r' = reported out f at?) :=
    fun hu => ⟨r, hu.trans hat, .inr (.inl (onlyReported_refl r))⟩
  rcases read_cases d deleted K s with ⟨u, f, hrun, hu⟩ | ⟨u, -, -, hno⟩ | ⟨r', s', hr⟩
  · rw [hrun] at h
    cases Run.leads_finished h
    exact unchanged hu
  · exact absurd hat (hno r)
  · obtain rfl := stored_unique hr.objectAt_eq hat
    obtain ⟨u, x, hl, hfin⟩ := dispatch_of_leads hr h
    -- Until the dispatch comes out, the object is the one that was read.
    have hu : SameAt K s u := ((hd s').view_eq_of_leads hl).trans hr.sameAt
    cases (hd s').post_of_leads hl with
    | fault f =>
      cases hfin
      exact unchanged hu
    | configured out =>
      rcases finish_objectAt hfin K with ht | ⟨-, -, -, ht⟩
      · exact unchanged (ht.trans hu)
      · have hnext := settle_of_some (o := { resource := out, next := some (.into .succeeded) }) rfl
        exact ⟨_, ht, .inl (hnext u.cluster.clock).1⟩
    | retried f =>
      rcases finish_objectAt hfin K with ht | ⟨-, -, -, ht⟩
      · exact unchanged (ht.trans hu)
      · obtain ⟨at?, heq⟩ := exists_settle_eq_reported (o := retrying r' f) rfl hp u.cluster.clock
        rw [heq] at ht
        exact ⟨_, ht, .inr (.inl (onlyReported_reported r' f at?))⟩
    | spilled out f hf =>
      rcases finish_objectAt hfin K with ht | ⟨-, -, -, ht⟩
      · exact unchanged (ht.trans hu)
      · have hout : out.phase.name = .text Phase.configuring.text := by rw [hs out f hf, hp]
        obtain ⟨at?, heq⟩ := exists_settle_eq_reported (o := retrying out f) rfl hout u.cluster.clock
        rw [heq] at ht
        exact ⟨_, ht, .inr (.inr ⟨out, f, at?, hf, rfl⟩)⟩

end

/-! ### When an attempt only reports -/

section

variable {δ : Type} {D : Deployer δ} {K : ObjectKey}

/-- Whether a catalog source config is what a failed attempt has left of another one, with packages
that had been filled in when a store call failed. -/
def Spilled (D : Deployer δ) (r r' : CatalogSourceConfig) : Prop :=
  ∃ out f at?, PartlyFilled D r out f ∧ out.packages ≠ r.packages ∧ r' = reported out f at?

/-- Packages that were filled in are all that tells a copy from the resource. -/
theorem Confined.of_partlyFilled (hC : Confined D) {r out : CatalogSourceConfig} {f : Fault}
    (h : PartlyFilled D r out f) : out = { r with packages := out.packages } := by
  obtain ⟨c, c', hpop, -⟩ := h
  obtain ⟨packages, hp⟩ := hC.populate r c
  rw [hpop] at hp
  obtain rfl : out = { r with packages } := hp
  rfl

/-- What is left of a failed attempt has not succeeded and does more than report. -/
theorem Spilled.not_reported (hC : Confined D) {r r' : CatalogSourceConfig}
    (hp : r.phase.name = .text Phase.configuring.text) (h : Spilled D r r') :
    ¬ (r'.phase.name = .text Phase.succeeded.text ∨ OnlyReported r r') := by
  obtain ⟨out, f, at?, hfill, hne, rfl⟩ := h
  rintro (hs | hr)
  · have hout : (reported out f at?).phase.name = r.phase.name := by
      rw [hC.of_partlyFilled hfill]
      rfl
    exact phase_ne (b := .succeeded) (by decide) hp (hout.symm.trans hs)
  · -- Reporting leaves the packages as they were.
    rw [OnlyReported] at hr
    exact hne (congrArg (·.packages) hr)

/-- An attempt to configure an operator source ends in one of the ways of attempts. -/
theorem attempted_source_dispatch (hD : Spares D K) (limit : Option Deadline) {r : OperatorSource}
    (hp : r.phase.name = .text Phase.configuring.text) :
    ((Source.dispatcher D limit).dispatch [] r).Keeps (objectAt K)
      (Attempted (fun _ _ => False) r) := by
  refine attempted_dispatch hp fun name rec hrec hphase trace => ?_
  rcases source_reconciler_cases hrec with rfl | rfl | rfl | rfl
  · cases Phase.text_injective (p := .initial) hphase
  · exact attempted_source_configure hD hp trace
  · cases Phase.text_injective (p := .succeeded) hphase
  · cases Phase.text_injective (p := .failed) hphase

/-- The same of a catalog source config, whose packages may have been filled in. -/
theorem attempted_catalog_dispatch (hD : Spares D K) (hC : Confined D) (limit : Option Deadline)
    {r : CatalogSourceConfig} (hp : r.phase.name = .text Phase.configuring.text) :
    ((Catalog.dispatcher D limit).dispatch [] r).Keeps (objectAt K)
      (Attempted (PartlyFilled D r) r) := by
  refine attempted_dispatch hp fun name rec hrec hphase trace => ?_
  rcases catalog_reconciler_cases hrec with rfl | rfl | rfl | rfl
  · cases Phase.text_injective (p := .initial) hphase
  · exact attempted_catalog_configure hD hC hp trace
  · cases Phase.text_injective (p := .succeeded) hphase
  · cases Phase.text_injective (p := .failed) hphase

/-- Attempts to configure a resource that nobody else writes meanwhile, by a deployer that leaves
what it ensures as it is and fills in nothing but packages. After an attempt an operator source has
succeeded, or it is as it was but for the message of its phase and the time of its last update. For a
catalog source config the same holds exactly if what stands there is not what is left of an attempt
in which a store call failed after packages had been filled in. -/
theorem attempt_reports_iff (hD : Spares D K) (hC : Confined D) (limit : Option Deadline)
    (deleted : DeletionHook δ) (s t : Shared δ) (result : Except Fault Bool) :
    (∀ r : OperatorSource, objectAt K s = some r.toManifest →
      r.phase.name = .text Phase.configuring.text →
      Run.Leads (SameAt K) ((reconcile (Source.dispatcher D limit) deleted K).run s)
        (.finished t result) →
      ∃ r' : OperatorSource, objectAt K t = some r'.toManifest ∧
        (r'.phase.name = .text Phase.succeeded.text ∨ OnlyReported r r')) ∧
    (∀ r : CatalogSourceConfig, objectAt K s = some r.toManifest →
      r.phase.name = .text Phase.configuring.text →
      Run.Leads (SameAt K) ((reconcile (Catalog.dispatcher D limit) deleted K).run s)
        (.finished t result) →
      ∃ r' : CatalogSourceConfig, objectAt K t = some r'.toManifest ∧
        (r'.phase.name = .text Phase.succeeded.text ∨ OnlyReported r r' ↔ ¬ Spilled D r r')) := by
  refine ⟨fun r hat hp h => ?_, fun r hat hp h => ?_⟩
  · obtain ⟨r', hat', hr' | hr' | ⟨_, _, _, hf, -⟩⟩ :=
      attempted_of_leads hat hp (fun _ _ hf => hf.elim) (attempted_source_dispatch hD limit hp) h
    · exact ⟨r', hat', .inl hr'⟩
    · exact ⟨r', hat', .inr hr'⟩
    · exact hf.elim
  · have hs : ∀ out f, PartlyFilled D r out f → out.phase = r.phase := by
      intro out f hf
      rw [hC.of_partlyFilled hf]
    obtain ⟨r', hat', hr'⟩ :=
      attempted_of_leads hat hp hs (attempted_catalog_dispatch hD hC limit hp) h
    refine ⟨r', hat', ⟨fun hr hspilled => hspilled.not_reported hC hp hr, fun hno => ?_⟩⟩
    rcases hr' with hr' | hr' | ⟨out, f, at?, hf, rfl⟩
    · exact .inl hr'
    · exact .inr hr'
    · -- A copy with the packages of the resource is the resource.
      have hpackages : out.packages = r.packages :=
        Classical.byContradiction fun hne => hno ⟨out, f, at?, hf, hne, rfl⟩
      have heq : out = r := by rw [hC.of_partlyFilled hf, hpackages]
      exact .inr (heq ▸ onlyReported_reported r f at?)

end

/-! ### An attempt that leaves packages behind -/

/-- A deployer in which a store call fails after a package has been filled in. -/
def spilling {δ : Type} : Deployer δ where
  ensure _ r := .pure (r, .ok ())
  populate r c :=
    (c, { r with packages := [⟨.text "p", .text ""⟩] }, .error (.storeFailure "unreachable"))

/-- The deployer leaves every object alone. -/
theorem spares_spilling {δ : Type} (K : ObjectKey) : Spares (spilling : Deployer δ) K where
  ensure _ _ := .pure trivial
  populate _ _ := rfl

/-- The deployer fills in nothing but packages. -/
theorem confined_spilling {δ : Type} : Confined (spilling : Deployer δ) where
  ensure _ _ := .pure rfl
  populate _ _ := ⟨_, rfl⟩

/-- What an attempt by this deployer comes out as. -/
def spilledOutcome : Outcome CatalogSourceConfig :=
  retrying { underway with packages := [⟨.text "p", .text ""⟩] } (.storeFailure "unreachable")

/-- The attempt asks to be made again, and the package stands in the store. -/
theorem attempt_spilling : ∃ t : Shared Unit, ∃ at?,
    Run.Leads (SameAt underway.key) ((reconcile (Catalog.dispatcher spilling none)
        Controller.forgetCopy underway.key).run (holding underway ())) (.finished t (.ok true)) ∧
      objectAt underway.key t =
        some (reported spilledOutcome.resource (.storeFailure "unreachable") at?).toManifest := by
  let s : Shared Unit := holding underway ()
  let u : Shared Unit := { s with lastKnownGood := s.lastKnownGood.insert underway.key underway }
  have hat : objectAt underway.key u = some underway.toManifest := objectAt_holding underway ()
  obtain ⟨t, hfin⟩ := finish_of_clear (r := underway) (o := spilledOutcome) (s := u) rfl rfl hat
  have hrun : (reconcile (Catalog.dispatcher spilling none) Controller.forgetCopy
      underway.key).run s = finish underway (.ok spilledOutcome) u := by
    rw [reconcile_run_of_reads (reads_holding () rfl)]
    rfl
  obtain ⟨at?, hsettle⟩ : ∃ at?, (spilledOutcome.settle u.cluster.clock).1 =
      reported spilledOutcome.resource (.storeFailure "unreachable") at? :=
    exists_settle_eq_reported rfl rfl u.cluster.clock
  refine ⟨t, at?, ?_, ?_⟩
  · rw [hrun, hfin]
    exact .here _
  · -- The message is new, so the outcome is written.
    have hdiffers : (spilledOutcome.settle u.cluster.clock).1.toManifest.same underway.toManifest =
        false := by
      rw [Bool.eq_false_iff]
      intro hsame
      obtain ⟨hname, hmessage⟩ := settle_of_some (o := spilledOutcome) rfl u.cluster.clock
      rw [Manifest.same_comm] at hsame
      exact absurd (Managed.phase_of_same hsame hname hmessage).2 (by decide)
    rw [← hsettle]
    exact finish_writes hat rfl hdiffers hfin

/-- The two laws for this attempt: there is a resource under the key, and it does more than report
exactly if it is what is left of the attempt. -/
theorem attempt_reports_iff_spilling : ∃ (t : Shared Unit) (r' : CatalogSourceConfig),
    objectAt underway.key t = some r'.toManifest ∧
      (r'.phase.name = .text Phase.succeeded.text ∨ OnlyReported underway r' ↔
        ¬ Spilled (spilling : Deployer Unit) underway r') := by
  obtain ⟨t, -, hrun, -⟩ := attempt_spilling
  obtain ⟨r', hat, hiff⟩ := (attempt_reports_iff (spares_spilling underway.key) confined_spilling
    none Controller.forgetCopy (holding underway ()) t (.ok true)).2 underway
    (objectAt_holding underway ()) rfl hrun
  exact ⟨t, r', hat, hiff⟩

/-- An attempt that fails does not always only report: a package that was filled in before a store
call failed is stored. -/
theorem not_attempt_reports :
    ¬ ∀ (D : Deployer Unit) (limit : Option Deadline) (K : ObjectKey) (s t : Shared Unit)
      (r : CatalogSourceConfig) (result : Except Fault Bool), Spares D K → Confined D →
      objectAt K s = some r.toManifest → r.phase.name = .text Phase.configuring.text →
      Run.Leads (SameAt K)
        ((reconcile (Catalog.dispatcher D limit) Controller.forgetCopy K).run s)
        (.finished t result) →
      ∃ r' : CatalogSourceConfig, objectAt K t = some r'.toManifest ∧
        (r'.phase.name = .text Phase.succeeded.text ∨ OnlyReported r r') := by
  intro h
  obtain ⟨t, at?, hrun, hat⟩ := attempt_spilling
  obtain ⟨r', hat', hr'⟩ := h spilling none underway.key _ t underway _ (spares_spilling _)
    confined_spilling (objectAt_holding underway ()) rfl hrun
  obtain rfl := stored_unique hat' hat
  have hspilled : Spilled (spilling : Deployer Unit) underway
      (reported spilledOutcome.resource (.storeFailure "unreachable") at?) :=
    ⟨_, _, at?, ⟨t.cluster, t.cluster, rfl, rfl⟩, by decide, rfl⟩
  exact hspilled.not_reported confined_spilling rfl hr'

end CatalogOperator.Proofs.Reconcile
