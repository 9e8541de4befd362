import CatalogOperator.Proofs.Activity.Endings
import CatalogOperator.Proofs.Reconcile.Call
import Mathlib.Data.List.Basic

/-!
# `CatalogOperator.Proofs.Reconcile.Lifecycle`: the phases of a resource under reconciles

A key is reconciled again and again, and nobody else writes its object. Everything else may happen
at any time: other objects come and go, proxy values change, calls fail, deadlines pass, sleeping
reconciles are cancelled, and the deployer does what it likes with the rest of the cluster.

* `Advance`: what one reconcile can make of the phase of a resource. `advance_of_leads` is the step
  lemma: the object stays as it is, or its phase has advanced.
* `Met`: the states met while a key is reconciled. `told_of_met` is the run lemma: a succeeded
  resource has no message, a failed one has.
* `reconcile_unhandled`: a phase without a reconciler is a fault, and nothing is written.
* `message_of_reports`: a resource whose configuring was answered with an error carries the message
  of the error.
* `lifecycle`: the four laws together.
-/

set_option autoImplicit false

namespace CatalogOperator.Proofs.Reconcile

section

variable {δ Spec Packages : Type} [ManagedKind Spec Packages] {D : Deployer δ} {K : ObjectKey}
  {d : Dispatcher (Shared δ) (Managed Spec Packages)} {deleted : DeletionHook δ}
  {r : Managed Spec Packages} {s t : Shared δ}

/-- The moves of a resource from phase to phase. -/
inductive Edge : Phase → Phase → Prop
  | schedule : Edge .initial .configuring
  | reject : Edge .initial .failed
  | configure : Edge .configuring .succeeded
  | reset : Edge .succeeded .configuring

/-- Whether a resource stays in its phase or moves along an edge. -/
def Follows (p q : PhaseRecord) : Prop :=
  q.name = p.name ∨ ∃ a b, Edge a b ∧ p.name = .text a.text ∧ q.name = .text b.text

/-- Whether the message of a phase fits: there is none in `Succeeded` and one in `Failed`. -/
structure Told (p : PhaseRecord) : Prop where
  succeeded : p.name = .text Phase.succeeded.text → p.message = .text ""
  failed : p.name = .text Phase.failed.text → ∃ m, m ≠ "" ∧ p.message = .text m

/-- What one reconcile can make of a phase that it does not leave as it is. -/
inductive Advance (p q : PhaseRecord) : Prop
  | scheduled : p.name = .text Phase.initial.text → q.name = .text Phase.configuring.text →
      Advance p q
  | rejected (m : String) : p.name = .text Phase.initial.text → q.name = .text Phase.failed.text →
      m ≠ "" → q.message = .text m → Advance p q
  | retried : p.name = .text Phase.configuring.text → q.name = .text Phase.configuring.text →
      Advance p q
  | configured : p.name = .text Phase.configuring.text → q.name = .text Phase.succeeded.text →
      q.message = .text "" → Advance p q
  | reset : p.name = .text Phase.succeeded.text → q.name = .text Phase.configuring.text →
      Advance p q

/-- No two phases have the same name. -/
theorem phase_ne {p : PhaseRecord} {a b : Phase} (hab : a ≠ b) (h : p.name = .text a.text) :
    p.name ≠ .text b.text := by
  rw [h]
  intro he
  exact hab (Phase.text_injective (Value.text.inj he))

/-- An advance stays in the phase or moves along an edge. -/
theorem Advance.follows {p q : PhaseRecord} (h : Advance p q) : Follows p q := by
  cases h with
  | scheduled hp hq => exact .inr ⟨_, _, .schedule, hp, hq⟩
  | rejected m hp hq => exact .inr ⟨_, _, .reject, hp, hq⟩
  | retried hp hq => exact .inl (hq.trans hp.symm)
  | configured hp hq => exact .inr ⟨_, _, .configure, hp, hq⟩
  | reset hp hq => exact .inr ⟨_, _, .reset, hp, hq⟩

/-- After an advance the message fits. -/
theorem Advance.told {p q : PhaseRecord} (h : Advance p q) : Told q := by
  -- In `Configuring` any message will do.
  have configuring : q.name = .text Phase.configuring.text → Told q := fun hq =>
    ⟨fun hs => absurd hs (phase_ne (by decide) hq), fun hf => absurd hf (phase_ne (by decide) hq)⟩
  cases h with
  | scheduled _ hq => exact configuring hq
  | rejected m _ hq hm hmsg =>
    exact ⟨fun hs => absurd hs (phase_ne (by decide) hq), fun _ => ⟨m, hm, hmsg⟩⟩
  | retried _ hq => exact configuring hq
  | configured _ hq hmsg =>
    exact ⟨fun _ => hmsg, fun hf => absurd hf (phase_ne (by decide) hq)⟩
  | reset _ hq => exact configuring hq

/-- Nothing advances out of `Failed`. -/
theorem Advance.not_failed {p q : PhaseRecord} (h : Advance p q) :
    p.name ≠ .text Phase.failed.text := by
  cases h with
  | scheduled hp => exact phase_ne (by decide) hp
  | rejected m hp => exact phase_ne (by decide) hp
  | retried hp => exact phase_ne (by decide) hp
  | configured hp => exact phase_ne (by decide) hp
  | reset hp => exact phase_ne (by decide) hp

/-! ### One reconcile -/

/-- A settled verdict is the resource as it was read, or its phase has advanced. -/
theorem advance_of_verdict {o : Outcome (Managed Spec Packages)} (h : Verdicts D r (.ok o))
    (clock : Clock) : (o.settle clock).1 = r ∨ Advance r.phase (o.settle clock).1.phase := by
  have settled : ∀ {next : Transition}, o.next = some next →
      (o.settle clock).1.phase.name = .text next.name ∧
        (o.settle clock).1.phase.message = .text next.message :=
    fun h => settle_of_some h clock
  cases h with
  | scheduled hp =>
    obtain ⟨hname, -⟩ := settled rfl
    exact .inr (.scheduled hp hname)
  | rejected m hp hm =>
    obtain ⟨hname, hmsg⟩ := settled rfl
    exact .inr (.rejected m hp hname hm hmsg)
  | configured out hp =>
    obtain ⟨hname, hmsg⟩ := settled rfl
    exact .inr (.configured hp hname hmsg)
  | retried out f hp =>
    obtain ⟨hname, -⟩ := settled rfl
    exact .inr (.retried hp hname)
  | converged hp => exact .inl rfl
  | postponed f hp => exact .inl rfl
  | reset hp =>
    obtain ⟨hname, -⟩ := settled rfl
    exact .inr (.reset hp hname)
  | ended hp => exact .inl rfl

/-- Nobody but the reconciles of a key writes its object: neither the deployer nor what is done when
the object is gone. -/
structure Undisturbed (D : Deployer δ) (deleted : DeletionHook δ) (K : ObjectKey) : Prop where
  deployer : Spares D K
  deletion : Activity.Keeps (objectAt K) (fun _ => True) (deleted K).run

/-- What is done when the object is gone leaves the object under the key alone. -/
theorem keeps_deletion (h : Undisturbed D deleted K) :
    Activity.Keeps (objectAt K) (fun _ => True)
      (do deleted K; return false : Attempt (Shared δ) Bool).run := by
  refine Activity.Keeps.bind h.deletion fun x _ => ?_
  cases x with
  | error f => exact .pure trivial
  | ok _ => exact .pure trivial

/-- However far a reconcile has got, the object under its key is as it was, or it is a resource the
phase of which has advanced. -/
theorem advance_of_leads (hd : Standard D d) (hU : Undisturbed D deleted K)
    {c : Run (Shared δ) (Except Fault Bool)}
    (h : Run.Leads (SameAt K) ((reconcile d deleted K).run s) c) :
    SameAt K s c.state ∨ ∃ r r' : Managed Spec Packages, objectAt K s = some r.toManifest ∧
      objectAt K c.state = some r'.toManifest ∧ r'.key = K ∧ Advance r.phase r'.phase := by
  rcases read_cases d deleted K s with ⟨u, f, hrun, hs⟩ | ⟨u, hrun, hs, -⟩ | ⟨r, u, hr⟩
  · rw [hrun] at h
    rw [Run.leads_finished h]
    exact .inl hs
  · rw [hrun] at h
    exact .inl (((keeps_deletion hU u).view_eq_of_leads h).trans hs)
  · rw [reconcile_run_of_reads hr] at h
    have hkeeps := keeps_dispatch hU.deployer hd [] r u
    rcases Run.leads_bind h with ⟨v, seconds, resume, hl, rfl⟩ | ⟨v, x, hl, hc⟩
    · -- Asleep in the dispatch, nothing has been written yet.
      exact .inl ((hkeeps.view_eq_of_leads hl).trans hr.sameAt)
    · -- The dispatch has come out. What is written is its outcome, settled.
      have hv : SameAt K s v := (hkeeps.view_eq_of_leads hl).trans hr.sameAt
      have hx := hkeeps.post_of_leads hl
      obtain ⟨t, result, hfin⟩ := finish_eq r x v
      rw [hfin] at hc
      rw [Run.leads_finished hc, Run.state_finished]
      cases x with
      | error f =>
        cases hfin
        exact .inl hv
      | ok o =>
        rcases finish_objectAt hfin K with hsame | ⟨hk, hne, -, hat⟩
        · exact .inl (hsame.trans hv)
        · rcases advance_of_verdict hx v.cluster.clock with heq | hadv
          -- What is as it was read is not written.
          · rw [heq, Manifest.same_refl] at hne
            cases hne
          · exact .inr ⟨r, _, hr.objectAt_eq, hat, hk, hadv⟩

/-- An operator source whose phase is named by a list. -/
def strayed : OperatorSource where
  name := .text "s"
  ns := .text "openshift-marketplace"
  spec := { endpoint := .text "e" }
  phase := { name := .list [.text "Bogus"] }
  packages := .text ""

/-- A phase without a reconciler is a fault of its own, or that of a name which cannot be looked up.
Nothing is written. -/
theorem reconcile_unhandled (deleted : DeletionHook δ) (hr : Reads K s r t)
    (hn : ∀ p ∈ d.phases, r.phase.name ≠ .text p) :
    (reconcile d deleted K).run s =
        .finished t (.error (if r.phase.name.isScalar then
          .unhandledPhase r.key.text r.phase.name.plain else Fault.notAKey r.phase.name)) ∧
      t.cluster.store.objects = s.cluster.store.objects := by
  refine ⟨?_, hr.objects_eq⟩
  rw [reconcile_run_of_reads hr]
  unfold Dispatcher.dispatch
  rw [reconcilerFor_of_unhandled hn]
  rfl

/-- A name that cannot be looked up is no unhandled phase: an operator source whose phase is named
by a list is reconciled with a fault of another kind. -/
theorem reconcile_unhandled_of_list :
    ¬ ∀ (D : Deployer Unit) (limit : Option Deadline) (K : ObjectKey) (s t : Shared Unit)
      (r : OperatorSource), Reads K s r t →
      (∀ p ∈ (Source.dispatcher D limit).phases, r.phase.name ≠ .text p) →
      (reconcile (Source.dispatcher D limit) Controller.forgetSource K).run s =
        .finished t (.error (.unhandledPhase r.key.text r.phase.name.plain)) := by
  intro h
  have hr := reads_holding (r := strayed) () rfl
  have hn : ∀ p ∈ (Source.dispatcher (idle : Deployer Unit) none).phases,
      strayed.phase.name ≠ .text p := fun p _ he => by cases he
  have hrun := h idle none strayed.key _ _ strayed hr hn
  rw [(reconcile_unhandled _ hr hn).1] at hrun
  cases hrun

/-- Whether a reconcile of a resource from one state to another ended with an error to be tried
again: the dispatch came out with the error, and finishing went well. -/
def Reports (d : Dispatcher (Shared δ) (Managed Spec Packages)) (K : ObjectKey) (s : Shared δ)
    (r : Managed Spec Packages) (f : Fault) (t : Shared δ) : Prop :=
  ∃ s' u o, Reads K s r s' ∧ Run.Leads (SameAt K) (d.dispatch [] r s') (.finished u (.ok o)) ∧
    o.error = some f ∧ finish r (.ok o) u = .finished t (.ok true)

/-- A reconcile that asks to be tried again has an error to report. -/
theorem exists_reports (hat : objectAt K s = some r.toManifest)
    (h : Run.Leads (SameAt K) ((reconcile d deleted K).run s) (.finished t (.ok true))) :
    ∃ f, Reports d K s r f t := by
  rcases read_cases d deleted K s with ⟨u, f, hrun, -⟩ | ⟨u, -, -, hno⟩ | ⟨r', s', hr⟩
  · rw [hrun] at h
    cases Run.leads_finished h
  · exact absurd hat (hno r)
  · have heq := stored_unique hr.objectAt_eq hat
    subst heq
    obtain ⟨u, x, hl, hfin⟩ := dispatch_of_leads hr h
    cases x with
    | error f => cases hfin
    | ok o =>
      -- Whichever way finishing went well, it asks to be tried again if there is an error.
      have hsome : o.error.isSome = true := by
        rcases finish_cases hfin with ⟨-, hb, -⟩ | ⟨_, -, hb, -⟩ | ⟨_, -, hb, -⟩
        · exact (Except.ok.inj hb).symm
        · cases hb
        · exact (Except.ok.inj hb).symm
      obtain ⟨f, hf⟩ := Option.isSome_iff_exists.1 hsome
      exact ⟨f, s', u, o, hr, hl, hf, hfin⟩

/-- An error while a resource is being configured means that it is tried again with its message. -/
theorem retried_of_error {o : Outcome (Managed Spec Packages)} {f : Fault}
    (h : Verdicts D r (.ok o)) (hf : o.error = some f)
    (hp : r.phase.name = .text Phase.configuring.text) :
    o.next = some (.into .configuring f.message) ∧ (KeepsIdentity D → o.resource.key = r.key) := by
  -- Two verdicts carry an error, and one of them is for another phase.
  cases h with
  | retried out g _ hkey =>
    cases hf
    exact ⟨rfl, hkey⟩
  | postponed g hs => exact absurd hs (phase_ne (by decide) hp)
  | scheduled => cases hf
  | rejected => cases hf
  | configured => cases hf
  | converged => cases hf
  | reset => cases hf
  | ended => cases hf

/-- The message of the error that a configuring attempt reports is stored with the resource. -/
theorem message_of_reports [ManagedContent Spec] (hd : Standard D d) (hD : Spares D K)
    (hi : KeepsIdentity D) (hK : r.key = K) (hp : r.phase.name = .text Phase.configuring.text)
    {f : Fault} (h : Reports d K s r f t) :
    ∃ r' : Managed Spec Packages, objectAt K t = some r'.toManifest ∧
      r'.phase.name = .text Phase.configuring.text ∧ r'.phase.message = .text f.message := by
  obtain ⟨s', u, o, hr, hl, hf, hfin⟩ := h
  have hkeeps := keeps_dispatch hD hd [] r s'
  -- When the dispatch comes out, the object is still the one that was read.
  have hat : objectAt K u = some r.toManifest :=
    ((hkeeps.view_eq_of_leads hl).trans hr.sameAt).trans hr.objectAt_eq
  obtain ⟨hnext, hkey⟩ := retried_of_error (hkeeps.post_of_leads hl) hf hp
  exact finish_stores hat ((hkey hi).trans hK) hnext hfin

/-! ### All reconciles of a key -/

/-- The states met while a key is reconciled and nobody else writes its object: others act in
between, and a reconcile gets as far as it can among them. A reconcile may stay asleep for good. -/
inductive Met (d : Dispatcher (Shared δ) (Managed Spec Packages)) (deleted : DeletionHook δ)
    (K : ObjectKey) (s₀ : Shared δ) : Shared δ → Prop
  | start : Met d deleted K s₀ s₀
  | others {s s' : Shared δ} : Met d deleted K s₀ s → SameAt K s s' → Met d deleted K s₀ s'
  | reconciled {s : Shared δ} {c : Run (Shared δ) (Except Fault Bool)} : Met d deleted K s₀ s →
      Run.Leads (SameAt K) ((reconcile d deleted K).run s) c → Met d deleted K s₀ c.state

/-- From a new resource on, the message of the stored one always fits its phase. -/
theorem told_of_met (hd : Standard D d) (hU : Undisturbed D deleted K) {s₀ : Shared δ}
    (hat : objectAt K s₀ = some r.toManifest) (hK : r.key = K)
    (hp : r.phase.name = .text Phase.initial.text) (h : Met d deleted K s₀ s) :
    ∃ r' : Managed Spec Packages, objectAt K s = some r'.toManifest ∧ r'.key = K ∧
      Told r'.phase := by
  induction h with
  | start =>
    -- `Initial` is neither of the two phases that ask something of the message.
    exact ⟨r, hat, hK, fun hs => absurd hs (phase_ne (by decide) hp),
      fun hf => absurd hf (phase_ne (by decide) hp)⟩
  | others _ hs ih =>
    obtain ⟨r', hat', hK', htold⟩ := ih
    exact ⟨r', hs.trans hat', hK', htold⟩
  | reconciled _ hl ih =>
    obtain ⟨r', hat', hK', htold⟩ := ih
    -- Wherever the phase has come from, an advance leaves a message that fits.
    rcases advance_of_leads hd hU hl with hs | ⟨_, r'', -, hat'', hK'', hadv⟩
    · exact ⟨r', hs.trans hat', hK', htold⟩
    · exact ⟨r'', hat'', hK'', hadv.told⟩

/-- The lifecycle of a resource while nobody but its reconciles writes it. However far a reconcile
has got, the stored resource is in the same phase or has moved along an edge, and a failed one is as
it was. A phase without a reconciler is a fault, and nothing is written. In every state met from a
new resource on, a succeeded one has no message and a failed one has. A reconcile that started in
`Configuring` and asks to be tried again reports an error, and the message of any error it reports
is stored, provided the deployer does not rename what it works on. -/
theorem lifecycle (hd : Standard D d) (hU : Undisturbed D deleted K) :
    (∀ s c, Run.Leads (SameAt K) ((reconcile d deleted K).run s) c →
      SameAt K s c.state ∨ ∃ r r' : Managed Spec Packages, objectAt K s = some r.toManifest ∧
        objectAt K c.state = some r'.toManifest ∧ Follows r.phase r'.phase) ∧
    (∀ s c (r : Managed Spec Packages),
      Run.Leads (SameAt K) ((reconcile d deleted K).run s) c → objectAt K s = some r.toManifest →
      r.phase.name = .text Phase.failed.text → objectAt K c.state = some r.toManifest) ∧
    (∀ s t (r : Managed Spec Packages), Reads K s r t →
      (∀ p ∈ d.phases, r.phase.name ≠ .text p) →
      (reconcile d deleted K).run s =
          .finished t (.error (if r.phase.name.isScalar then
            .unhandledPhase r.key.text r.phase.name.plain else Fault.notAKey r.phase.name)) ∧
        t.cluster.store.objects = s.cluster.store.objects) ∧
    (∀ s₀ (r₀ : Managed Spec Packages), objectAt K s₀ = some r₀.toManifest → r₀.key = K →
      r₀.phase.name = .text Phase.initial.text → r₀.phase.message = .text "" →
      ∀ s, Met d deleted K s₀ s → ∃ r : Managed Spec Packages,
        objectAt K s = some r.toManifest ∧ Told r.phase ∧
        (KeepsIdentity D → r.phase.name = .text Phase.configuring.text → ∀ t,
          (Run.Leads (SameAt K) ((reconcile d deleted K).run s) (.finished t (.ok true)) →
            ∃ f, Reports d K s r f t) ∧
          ∀ f, Reports d K s r f t → ∃ r' : Managed Spec Packages,
            objectAt K t = some r'.toManifest ∧ r'.phase.message = .text f.message)) := by
  refine ⟨fun s c h => ?_, fun s c r h hat hf => ?_, fun s t r hr hn => ?_,
    fun s₀ r₀ hat hK hp _ s hmet => ?_⟩
  -- A resource that is written has advanced, and one that has failed does not advance.
  · rcases advance_of_leads hd hU h with hs | ⟨r, r', hr, hr', -, hadv⟩
    · exact .inl hs
    · exact .inr ⟨r, r', hr, hr', hadv.follows⟩
  · rcases advance_of_leads hd hU h with hs | ⟨r', _, hr', -, -, hadv⟩
    · exact hs.trans hat
    · exact absurd hf (stored_unique hat hr' ▸ hadv.not_failed)
  · exact reconcile_unhandled deleted hr hn
  · obtain ⟨r, hat', hK', htold⟩ := told_of_met hd hU hat hK hp hmet
    refine ⟨r, hat', htold, fun hi hc t => ⟨exists_reports hat', fun f hrep => ?_⟩⟩
    obtain ⟨r', hr', -, hmsg⟩ : ∃ r' : Managed Spec Packages, objectAt K t = some r'.toManifest ∧
        r'.phase.name = .text Phase.configuring.text ∧ r'.phase.message = .text f.message := by
      cases hd with
      | source limit => exact message_of_reports (.source limit) hU.deployer hi hK' hc hrep
      | catalog limit => exact message_of_reports (.catalog limit) hU.deployer hi hK' hc hrep
    exact ⟨r', hr', hmsg⟩

/-- A new operator source, with an empty message. -/
def fresh : OperatorSource where
  name := .text "s"
  ns := .text "openshift-marketplace"
  spec := { endpoint := .text "e" }
  packages := .text ""

/-- What is remembered of an operator source is no object. -/
theorem undisturbed_of_spares {D : Deployer Unit} {K : ObjectKey} (h : Spares D K) :
    Undisturbed D Controller.forgetSource K where
  deployer := h
  deletion _ := ⟨rfl, trivial⟩

/-- A deployer that gets nothing in place. -/
def unable : Deployer Unit where
  ensure _ r := .pure (r, .error (.invalidArgument "boom"))
  populate r c := (c, r, .ok ())

/-- It leaves every object alone. -/
theorem spares_unable (K : ObjectKey) : Spares unable K where
  ensure _ _ := .pure trivial
  populate _ _ := rfl

/-- It renames nothing. -/
theorem keepsIdentity_unable : KeepsIdentity unable where
  ensure _ _ := .pure ⟨rfl, rfl⟩
  populate r _ := ⟨r.packages, rfl⟩

/-- The state after the new operator source has been reconciled twice. -/
def afterTwo (D : Deployer Unit) : Shared Unit :=
  let d := Source.dispatcher D none
  let once := ((reconcile d Controller.forgetSource fresh.key).run (holding fresh ())).state
  ((reconcile d Controller.forgetSource fresh.key).run once).state

/-- That state is met while the operator source is reconciled. -/
theorem met_afterTwo (D : Deployer Unit) :
    Met (Source.dispatcher D none) Controller.forgetSource fresh.key (holding fresh ())
      (afterTwo D) :=
  .reconciled (.reconciled .start (.here _)) (.here _)

/-- The lifecycle of a new operator source. It has succeeded after two reconciles, with no message. If the
deployer gets nothing in place, it is still being configured after two, and the third one reports the
error and stores its message. -/
theorem lifecycle_fresh :
    (Standard (idle : Deployer Unit) (Source.dispatcher idle none) ∧
      Undisturbed (idle : Deployer Unit) Controller.forgetSource fresh.key ∧
      ∃ r : OperatorSource, objectAt fresh.key (afterTwo idle) = some r.toManifest ∧
        r.phase.name = .text Phase.succeeded.text ∧ r.phase.message = .text "") ∧
    Standard unable (Source.dispatcher unable none) ∧
      Undisturbed unable Controller.forgetSource fresh.key ∧ KeepsIdentity unable ∧
      ∃ (r r' : OperatorSource) (f : Fault) (t : Shared Unit),
        objectAt fresh.key (afterTwo unable) = some r.toManifest ∧
        r.phase.name = .text Phase.configuring.text ∧
        Reports (Source.dispatcher unable none) fresh.key (afterTwo unable) r f t ∧
        objectAt fresh.key t = some r'.toManifest ∧ r'.phase.message = .text f.message := by
  -- The name of the phase is read off the object that the two reconciles leave.
  have hname : ∀ {D : Deployer Unit} {r : OperatorSource} {name : Value},
      objectAt fresh.key (afterTwo D) = some r.toManifest →
      ((objectAt fresh.key (afterTwo D)).bind ManagedKind.ofManifest?).map
        (fun r : OperatorSource => r.phase.name) = some name → r.phase.name = name := by
    intro D r name hat h
    rw [hat, Option.bind_some, Managed.ofManifest?_toManifest] at h
    exact Option.some.inj h
  have hidle := undisturbed_of_spares (spares_idle fresh.key)
  have hunable := undisturbed_of_spares (spares_unable fresh.key)
  refine ⟨⟨.source none, hidle, ?_⟩, .source none, hunable, keepsIdentity_unable, ?_⟩
  · obtain ⟨r, hat, htold, -⟩ := (lifecycle (.source none) hidle).2.2.2 (holding fresh ()) fresh
      (objectAt_holding fresh ()) rfl rfl rfl _ (met_afterTwo idle)
    have hsucceeded : r.phase.name = .text Phase.succeeded.text := hname hat (by decide +kernel)
    exact ⟨r, hat, hsucceeded, htold.succeeded hsucceeded⟩
  · obtain ⟨r, hat, -, hmessage⟩ := (lifecycle (.source none) hunable).2.2.2 (holding fresh ()) fresh
      (objectAt_holding fresh ()) rfl rfl rfl _ (met_afterTwo unable)
    have hconfiguring : r.phase.name = .text Phase.configuring.text :=
      hname hat (by decide +kernel)
    let run := (reconcile (Source.dispatcher unable none) Controller.forgetSource fresh.key).run
      (afterTwo unable)
    have hrun : run = .finished run.state (.ok true) :=
      Run.eq_finished_of_result? (by decide +kernel)
    obtain ⟨hasks, hstores⟩ := hmessage keepsIdentity_unable hconfiguring run.state
    obtain ⟨f, hreports⟩ := hasks (hrun ▸ .here _)
    obtain ⟨r', hat', hmsg⟩ := hstores f hreports
    exact ⟨r, r', f, _, hat, hconfiguring, hreports, hat', hmsg⟩

end

end CatalogOperator.Proofs.Reconcile
