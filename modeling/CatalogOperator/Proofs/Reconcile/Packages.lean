import CatalogOperator.Proofs.Reconcile.Handlers
import CatalogOperator.Proofs.Reconcile.Provision

/-!
# `CatalogOperator.Proofs.Reconcile.Packages`: the packages of a source are not lost

A source that is reset loses its packages with its status, and only the package index knows them until
it is configured again. Every way through the phases records them before they are dropped, and a
source that is configured shows them again.

* `recording`: a deployer that keeps a list of what it is handed.
* `Apart`: what others leave alone. `Onward`: the states met while the source is reconciled among them.
* `Learns`: the reconciles that take note of the packages in the status. `Keeping`: what holds from
  then on.
* `packages_kept`: from the first such reconcile on the deployer is handed these packages and no
  others, and a configured source has them in its status.
-/

set_option autoImplicit false

namespace CatalogOperator.Proofs.Reconcile

section

variable {δ : Type}

/-! ### What a deployer is handed -/

/-- What all reconciles share, with a list of what has been handed to the deployer. -/
abbrev Listing (δ : Type) : Type :=
  Shared (List CatalogSourceConfig × δ)

/-- A cluster without the list of what has been handed over. -/
def unlisted (c : Cluster (List CatalogSourceConfig × δ)) : Cluster δ :=
  { c with surroundings := c.surroundings.2 }

/-- The cluster with the list of another one. -/
def relisted (c : Cluster δ) (whole : Cluster (List CatalogSourceConfig × δ)) :
    Cluster (List CatalogSourceConfig × δ) :=
  { c with surroundings := (whole.surroundings.1, c.surroundings) }

/-- A cluster whose list was exchanged is the same without the list. -/
theorem unlisted_relisted (c : Cluster δ) (whole : Cluster (List CatalogSourceConfig × δ)) :
    unlisted (relisted c whole) = c :=
  rfl

/-- A deployer that first puts what it is handed at the end of a list. -/
def recording (D : Deployer δ) : Deployer (List CatalogSourceConfig × δ) where
  ensure trace r := do
    Activity.step fun c =>
      ({ c with surroundings := (c.surroundings.1 ++ [r], c.surroundings.2) }, ())
    Activity.zoom unlisted relisted (D.ensure trace r)
  populate r c :=
    let (inner, filled, ended) := D.populate r (unlisted c)
    (relisted inner c, filled, ended)

/-- What has been handed to the deployer so far. -/
def handed (s : Listing δ) : List CatalogSourceConfig :=
  s.cluster.surroundings.1

variable {K : ObjectKey} {D : Deployer δ}

/-- Recording what is handed over touches no object. -/
theorem Spares.recording (hD : Spares D K) : Spares (recording D) K where
  ensure trace r := by
    have hlist : (Activity.step fun c : Cluster (List CatalogSourceConfig × δ) =>
        ({ c with surroundings := (c.surroundings.1 ++ [r], c.surroundings.2) }, ())).Keeps
          (fun c => c.store.objects.find? K) fun _ => True := .step fun _ => ⟨rfl, trivial⟩
    have hrest := Activity.Keeps.zoom unlisted_relisted (hD.ensure trace r)
    exact hlist.bind fun _ _ => hrest
  populate r c := hD.populate r (unlisted c)

/-! ### A source and its packages -/

/-- Whether others leave alone what belongs to a source: its object, its packages in the index, and
what its reconciles have handed to the deployer. -/
structure Apart (K : ObjectKey) (s s' : Listing δ) : Prop where
  object : SameAt K s s'
  packages : s'.packages.find? K = s.packages.find? K
  handed : handed s' = handed s

/-- The states met while a source is reconciled and others leave alone what belongs to it. A reconcile
may stay asleep for good. -/
inductive Onward (d : Dispatcher (Listing δ) OperatorSource)
    (deleted : DeletionHook (List CatalogSourceConfig × δ)) (K : ObjectKey) (s₀ : Listing δ) :
    Listing δ → Prop
  | start : Onward d deleted K s₀ s₀
  | others {s s' : Listing δ} : Onward d deleted K s₀ s → Apart K s s' → Onward d deleted K s₀ s'
  | reconciled {s : Listing δ} {c : Run (Listing δ) (Except Fault Bool)} :
    Onward d deleted K s₀ s →
    Run.Leads (Apart K) ((reconcile d deleted K).run s) c → Onward d deleted K s₀ c.state

/-- Whether the reconcile of a source takes note of the packages in its status: it is being
configured, or it is configured and its deployment has drifted. -/
def Learns (r : OperatorSource) (s : Shared δ) : Prop :=
  r.packages.isTrue = true ∧
    (r.phase.name = .text Phase.configuring.text ∨
      r.phase.name = .text Phase.succeeded.text ∧
        ((Cluster.workloadIsStale r.ns r.name).runOn s.cluster).2 = .ok true)

/-- Whether a source has no packages in its status but the given ones, and has them there if it is
configured. -/
structure Shows (P : Value) (r : OperatorSource) : Prop where
  only : r.packages.isTrue = true → r.packages = P
  configured : r.phase.name = .text Phase.succeeded.text → r.packages = P

/-- Whether the index has the given packages for a source. -/
def Indexed (P : Value) (K : ObjectKey) (s : Shared δ) : Prop :=
  s.packages.find? K = some P

/-- Whether the packages of a source are known to be the given ones. -/
structure Keeping (P : Value) (K : ObjectKey) (s : Shared δ) : Prop where
  indexed : Indexed P K s
  shows : ∃ r : OperatorSource, r.key = K ∧ objectAt K s = some r.toManifest ∧ Shows P r

/-- Whether a list has grown by nothing but catalogs with the given packages. -/
def Grown (P : Value) (xs ys : List CatalogSourceConfig) : Prop :=
  ∃ more, ys = xs ++ more ∧ ∀ x ∈ more, x.spec.packages = P

/-- What is done to the index and the list while a source has the given packages. -/
structure Serves (P : Value) (K : ObjectKey) (s s' : Listing δ) : Prop where
  packages : s'.packages.find? K = s.packages.find? K
  handed : Grown P (handed s) (handed s')

variable {P : Value} {r : OperatorSource} {xs ys zs : List CatalogSourceConfig}

/-- A list that is the same has grown by nothing. -/
theorem Grown.of_eq (h : ys = xs) : Grown P xs ys :=
  ⟨[], by rw [h, List.append_nil], fun _ hx => nomatch hx⟩

/-- A list that has grown twice has grown by both. -/
theorem Grown.trans (h : Grown P xs ys) (h' : Grown P ys zs) : Grown P xs zs := by
  obtain ⟨more, rfl, hP⟩ := h
  obtain ⟨more', rfl, hP'⟩ := h'
  exact ⟨more ++ more', List.append_assoc _ _ _, fun x hx =>
    (List.mem_append.mp hx).elim (hP x) (hP' x)⟩

/-- What serves a source may be done one after the other. -/
theorem sequential_serves : Sequential (Serves P K : Listing δ → Listing δ → Prop) where
  refl _ := ⟨rfl, .of_eq rfl⟩
  trans h h' := ⟨h'.packages.trans h.packages, h.handed.trans h'.handed⟩

/-- Others who leave alone what belongs to the source serve it. -/
theorem Apart.serves {s s' : Listing δ} (h : Apart K s s') : Serves P K s s' :=
  ⟨h.packages, .of_eq h.handed⟩

/-! ### Settling -/

/-- Whether an outcome, once it is settled, is a source that shows the given packages. -/
def Restores (P : Value) (x : Except Fault (Outcome OperatorSource)) : Prop :=
  ∀ o, x = .ok o → ∀ clock, Shows P (o.settle clock).1

/-- A fault leaves nothing to restore. -/
theorem restores_error (f : Fault) : Restores P (.error f) :=
  fun _ h => nomatch h

/-- A source that goes on to no phase is settled already. -/
theorem restores_of_none (hr : Shows P r) {error : Option Fault} :
    Restores P (.ok { resource := r, error }) := by
  rintro o ho clock
  cases ho
  exact hr

/-- A source that goes on to another phase is settled in that phase. -/
theorem restores_of_some {next : Transition} {error : Option Fault}
    (honly : r.packages.isTrue = true → r.packages = P)
    (hnext : next.name = Phase.succeeded.text → r.packages = P) :
    Restores P (.ok { resource := r, next := some next, error }) := by
  rintro o ho clock
  cases ho
  obtain ⟨hname, -⟩ := settle_of_some (o := { resource := r, next := some next, error }) rfl clock
  rw [settle_eq] at hname ⊢
  refine ⟨honly, fun hphase => hnext ?_⟩
  rw [hname] at hphase
  exact Value.text.inj hphase

/-- It has to have its packages only if that phase is `Succeeded`. -/
theorem restores_of_into {p : Phase} (hp : p ≠ .succeeded) {message : String}
    {error : Option Fault} (honly : r.packages.isTrue = true → r.packages = P) :
    Restores P (.ok { resource := r, next := some (.into p message), error }) :=
  restores_of_some honly fun h => absurd (Phase.text_injective h) hp

/-! ### The index -/

/-- Recording a source leaves the index with its packages, whether it learns them from the status or
has them already. -/
theorem find?_record (index : PackageIndex) (hr : r.key = K)
    (honly : r.packages.isTrue = true → r.packages = P)
    (h : r.packages.isTrue = true ∨ index.find? K = some P) :
    (index.record r).find? K = some P ∧ (index.record r).packagesFor r = P := by
  unfold PackageIndex.record PackageIndex.packagesFor
  cases htrue : r.packages.isTrue with
  | true =>
    rw [if_pos rfl, if_pos rfl, hr, Table.find?_insert_self, honly htrue]
    exact ⟨rfl, rfl⟩
  | false =>
    have hindex : index.find? K = some P := h.resolve_left (by rw [htrue]; exact Bool.false_ne_true)
    rw [if_neg Bool.false_ne_true, if_neg Bool.false_ne_true, hr, hindex]
    exact ⟨rfl, rfl⟩

/-! ### The handlers -/

/-- What is handed over goes on the list, and the deployer does not get at the list. -/
theorem serves_ensure (D : Deployer δ) (trace : Trace) {x : CatalogSourceConfig}
    (hx : x.spec.packages = P) :
    (Shared.onCluster ((recording D).ensure trace x)).Obeys (Serves P K) := by
  have hR : Sequential fun c c' : Cluster (List CatalogSourceConfig × δ) =>
      Grown P c.surroundings.1 c'.surroundings.1 := ⟨fun _ => .of_eq rfl, fun h h' => h.trans h'⟩
  refine obeys_onCluster (fun _ _ h => ⟨rfl, h⟩) (Activity.Obeys.bind hR ?_ fun _ => ?_)
  · refine .step fun c => ⟨[x], rfl, fun y hy => ?_⟩
    rw [List.mem_singleton.mp hy]
    exact hx
  · have hinner : (D.ensure trace x).Obeys fun _ _ => True := fun c => Run.obeys_anything _ c
    exact Activity.Obeys.zoom (fun _ _ _ => .of_eq rfl) hinner

/-- Filling in packages hands nothing over. -/
theorem serves_populate (D : Deployer δ) (x : CatalogSourceConfig) :
    (Shared.populate (recording D) x).Obeys (Serves P K) :=
  obeys_onCluster (Q := fun c c' => c'.surroundings.1 = c.surroundings.1)
    (fun _ _ h => ⟨rfl, .of_eq h⟩)
    (.step fun _ => rfl)

/-- Tracked failures are no packages. -/
theorem serves_modify {f : Listing δ → ErrorTracker} :
    (Shared.modify fun s => { s with tracker := f s }).Obeys (Serves P K) :=
  .step fun _ => ⟨rfl, .of_eq rfl⟩

/-- Deploying the given packages hands over nothing else. -/
theorem serves_deploying (D : Deployer δ) (trace : Trace) (r : OperatorSource) :
    (deploying (recording D) trace r P).Obeys (Serves P K) :=
  obeys_deploying sequential_serves (serves_ensure D trace rfl) (serves_populate D)
    (fun _ => serves_modify) serves_modify

variable {d : Dispatcher (Shared δ) OperatorSource}

/-- A failure of an attempt leaves the source as it was. -/
theorem restores_conclude_error (hp : r.phase.name = .text Phase.configuring.text)
    (honly : r.packages.isTrue = true → r.packages = P) (f : Fault) (expired : Bool) :
    Restores P (d.conclude r r (.error f) expired) := by
  rcases conclude_error d r r expired f with ⟨g, hg⟩ | ⟨-, hg⟩
  · rw [hg]
    exact restores_error g
  · have hin : r.phase.isIn .succeeded = false := by
      rw [PhaseRecord.isIn, hp]
      rfl
    rw [hg, hin, if_neg Bool.false_ne_true, hp]
    exact restores_of_into (p := .configuring) (by decide) honly

/-- A source that has been configured has the packages that have been deployed, and any other one is
as it was. -/
theorem restores_deploying (hp : r.phase.name = .text Phase.configuring.text)
    (honly : r.packages.isTrue = true → r.packages = P) (D : Deployer δ) (trace : Trace) :
    (deploying D trace r P).Keeps (fun _ => ()) fun x =>
      ∀ expired, Restores P (d.conclude r x.1 x.2 expired) := by
  -- What the deployer does to the state does not matter here, only how each step ends.
  have anything : ∀ {α : Type} (p : Activity (Shared δ) α), p.Keeps (fun _ => ()) fun _ => True :=
    fun p s => Run.keeps_nothing (p s) s
  refine .bind (anything _) ?_
  rintro ⟨derived, ensured⟩ -
  cases ensured with
  | error f =>
    dsimp only
    split
    · exact .pure (restores_conclude_error hp honly f)
    · refine .bind (anything _) fun _ _ => .pure fun _ => ?_
      exact restores_of_into (by decide) honly
  | ok _ =>
    refine .bind (anything _) ?_
    rintro ⟨_, populated⟩ -
    cases populated with
    | error f => exact .pure (restores_conclude_error hp honly f)
    | ok _ =>
      refine .bind (anything _) fun _ _ => .pure fun _ => ?_
      exact restores_of_some (fun _ => rfl) fun _ => rfl

/-- Checking a source is done at once. Its packages are recorded if the deployment has drifted. -/
theorem check_run (trace : Trace) (r : OperatorSource) (s : Shared δ) :
    Source.check trace r s =
      match (Cluster.workloadIsStale r.ns r.name).runOn s.cluster with
      | (cluster, .error f) => .finished { s with cluster } (r, .error f)
      | (cluster, .ok false) => .finished { s with cluster } (r, .ok {})
      | (cluster, .ok true) =>
        .finished { s with cluster, packages := PackageIndex.record s.packages r }
          (r.resetStatus, .ok .reconfigure) := by
  unfold Source.check
  rw [callCluster_bind]
  cases (Cluster.workloadIsStale r.ns r.name).runOn s.cluster with
  | mk cluster x =>
    cases x with
    | error f => rfl
    | ok stale => cases stale <;> rfl

/-- Reading the deployment of a source hands over nothing. -/
theorem surroundings_workloadIsStale (ns name : Value) :
    Call.Keeps (fun c : Cluster δ => c.surroundings) (Cluster.workloadIsStale ns name) := by
  refine Call.Keeps.bind (fun _ => rfl) fun c => ?_
  dsimp only
  split
  · exact Call.Keeps.pure _
  · exact Call.Keeps.bind (fun _ => rfl) fun m _ => rfl

/-! ### The dispatch -/

variable {s t : Listing δ} {limit : Option Deadline}

/-- A source that is in neither of the working phases is left alone. -/
theorem exists_dispatch_eq (limit : Option Deadline) (D : Deployer δ)
    (hc : r.phase.name ≠ .text Phase.configuring.text)
    (hs : r.phase.name ≠ .text Phase.succeeded.text) (trace : Trace) (s : Shared δ) :
    ∃ x, (Source.dispatcher D limit).dispatch trace r s = .finished s x := by
  unfold Dispatcher.dispatch
  cases hrec : (Source.dispatcher D limit).reconcilerFor r with
  | error f => exact ⟨_, rfl⟩
  | ok rec =>
    obtain ⟨name, hname⟩ := exists_find?_of_reconcilerFor hrec
    dsimp only
    unfold Dispatcher.invoke
    cases hphase : rec.checkPhase r with
    | error f => exact ⟨_, rfl⟩
    | ok _ =>
      have hr := name_of_checkPhase hphase
      have hlimit : (Source.dispatcher D limit).limitFault? = none := limitFault?_eq_none rfl
      rw [hlimit]
      -- Of the reconcilers that may be found, those of the two phases are ruled out.
      rcases source_reconciler_cases hname with rfl | rfl | rfl | rfl
      · exact ⟨_, rfl⟩
      · exact absurd hr hc
      · exact absurd hr hs
      · exact ⟨_, rfl⟩

/-- What is written of a source that is in neither of the working phases shows the same packages. -/
theorem restores_of_verdict {D : Deployer δ} {x : Except Fault (Outcome OperatorSource)}
    (h : Verdicts D r x) (hr : Shows P r) (hc : r.phase.name ≠ .text Phase.configuring.text) :
    Restores P x := by
  cases h with
  | fault f => exact restores_error f
  | scheduled => exact restores_of_into (by decide) hr.only
  | rejected => exact restores_of_into (by decide) hr.only
  | configured out h => exact absurd h hc
  | retried out f h => exact absurd h hc
  | converged => exact restores_of_none hr
  | postponed => exact restores_of_none hr
  | reset =>
    have hwiped : r.resetStatus.packages.isTrue = false := rfl
    exact restores_of_into (by decide) fun h => absurd h (by simp [hwiped])
  | ended => exact restores_of_none hr

/-- A source that is not being configured is dispatched at once. The index has the given packages
afterwards if it had them before or the dispatch takes note of them. -/
theorem exists_dispatch_eq_of_ne (limit : Option Deadline)
    (D : Deployer (List CatalogSourceConfig × δ)) (hK : r.key = K)
    (honly : r.packages.isTrue = true → r.packages = P) (h : Indexed P K s ∨ Learns r s)
    (hc : r.phase.name ≠ .text Phase.configuring.text) (trace : Trace) :
    ∃ t x, (Source.dispatcher D limit).dispatch trace r s = .finished t x ∧ Indexed P K t ∧
      handed t = handed s := by
  by_cases hs : r.phase.name = .text Phase.succeeded.text
  · rw [dispatch_of_phase Source.succeeded rfl (limitFault?_eq_none rfl) hs]
    simp only [Source.succeeded, check_run]
    have hlist := surroundings_workloadIsStale r.ns r.name s.cluster
    cases hstale : (Cluster.workloadIsStale r.ns r.name).runOn s.cluster with
    | mk cluster x =>
      rw [hstale] at hlist
      -- Only a check that finds drift is a reason to learn the packages now.
      have hindexed : x ≠ .ok true → Indexed P K s := by
        intro hne
        refine h.resolve_right ?_
        rintro ⟨-, hl | ⟨-, hl⟩⟩
        · exact hc hl
        · exact hne (by rw [← hl, hstale])
      rcases x with f | stale
      · exact ⟨_, _, rfl, hindexed (by simp), congrArg Prod.fst hlist⟩
      · cases stale with
        | false => exact ⟨_, _, rfl, hindexed (by simp), congrArg Prod.fst hlist⟩
        | true =>
          have hrecord := find?_record s.packages hK honly (h.symm.imp And.left id)
          exact ⟨_, _, rfl, hrecord.1, congrArg Prod.fst hlist⟩
  · have hindexed : Indexed P K s := h.resolve_right fun hl => hl.2.elim hc fun hl => hs hl.1
    obtain ⟨x, hx⟩ := exists_dispatch_eq limit D hc hs trace s
    exact ⟨s, x, hx, hindexed, rfl⟩

/-- Before a source is dispatched that shows the given packages and no others, the index has them or
is about to get them. From a state with the same list in which the index has them, the dispatch hands
over nothing else, and comes out with a source that shows them. -/
theorem exists_indexed_dispatch (limit : Option Deadline) {D : Deployer δ} (hD : Spares D K)
    (hK : r.key = K) (hr : Shows P r) (h : Indexed P K s ∨ Learns r s) (trace : Trace) :
    ∃ s₁, Indexed P K s₁ ∧ handed s₁ = handed s ∧
      ((Source.dispatcher (recording D) limit).dispatch trace r s).Obeys (Serves P K) s₁ ∧
      ((Source.dispatcher (recording D) limit).dispatch trace r s).Keeps (fun _ => ())
        (Restores P) s₁ := by
  by_cases hc : r.phase.name = .text Phase.configuring.text
  · -- The packages are recorded first of all.
    let recorded : Listing δ := { s with packages := s.packages.record r }
    obtain ⟨hindex, hfor⟩ := find?_record s.packages hK hr.only (h.symm.imp And.left id)
    have hhandle : ∀ trace, (Source.configuring (recording D)).handle trace r s =
        deploying (recording D) trace r P recorded :=
      fun trace => congrArg (deploying (recording D) trace r · recorded) hfor
    refine ⟨recorded, hindex, rfl, ?_⟩
    rw [dispatch_of_phase (Source.configuring (recording D)) rfl (limitFault?_eq_none rfl) hc, hhandle]
    constructor
    · have hserves := serves_deploying (K := K) (P := P) D
      exact ((hserves _ r recorded).within sequential_serves _).bind sequential_serves
        fun x t => sequential_serves.refl t
    · have hrestores := restores_deploying (d := Source.dispatcher (recording D) limit) hc hr.only
        (recording D)
      exact ((hrestores _ recorded).within _).bind fun x hx t => ⟨rfl, hx x.2⟩
  · obtain ⟨t, x, hx, hindexed, hhanded⟩ :=
      exists_dispatch_eq_of_ne limit (recording D) hK hr.only h hc trace
    have hverdict := keeps_dispatch hD.recording (.source limit) trace r s
    rw [hx] at hverdict ⊢
    exact ⟨t, hindexed, hhanded, sequential_serves.refl t, rfl,
      restores_of_verdict hverdict.2 hr hc⟩

/-! ### The reconciles -/

variable {D : Deployer δ} {deleted : DeletionHook (List CatalogSourceConfig × δ)}
  {c : Run (Listing δ) (Except Fault Bool)}

/-- Reading a source leaves alone what belongs to it. -/
theorem apart_of_get {e : Expected} {cluster : Cluster (List CatalogSourceConfig × δ)}
    {x : Except Fault (Option Manifest)}
    (hget : Call.runOn (Cluster.get K e) s.cluster = (cluster, x)) :
    Apart K s { s with cluster } := by
  rw [Cluster.runOn_get, Prod.mk.injEq] at hget
  obtain ⟨rfl, -⟩ := hget
  exact ⟨rfl, rfl, rfl⟩

/-- Whether the packages of a source are known, and no others have been handed over on the way. -/
def Kept (P : Value) (K : ObjectKey) (s t : Listing δ) : Prop :=
  Keeping P K t ∧ Grown P (handed s) (handed t)

/-- However far the reconcile of a source has got that was read with the packages that are known, or
takes note of them, they are known. -/
theorem kept_of_reads {s' : Listing δ} (hD : Spares D K) (hread : Reads K s r s')
    (hK : r.key = K) (hr : Shows P r) (h : Indexed P K s' ∨ Learns r s')
    (hl : Run.Leads (Apart K)
      ((reconcile (Source.dispatcher (recording D) limit) deleted K).run s) c) :
    Kept P K s c.state := by
  have hlist : handed s' = handed s := by
    obtain ⟨cluster, hget, rfl⟩ := hread
    exact (apart_of_get hget).handed
  obtain ⟨s₁, hindexed, hhanded, hobeys, hrestores⟩ :=
    exists_indexed_dispatch limit hD hK hr h []
  have hobject := keeps_dispatch hD.recording (.source limit) [] r s'
  -- Wherever the dispatch has got, the source is as it was read.
  have hmid : ∀ {q}, Run.Leads (Apart K)
      ((Source.dispatcher (recording D) limit).dispatch [] r s') q →
        Kept P K s q.state ∧ objectAt K q.state = some r.toManifest := by
    intro q hq
    have hserves := hobeys.state_of_leads sequential_serves (fun _ _ h => h.serves) hq
    have hat : objectAt K q.state = some r.toManifest :=
      ((hobject.view_eq_of_leads (hq.mono fun _ _ h => h.object)).trans hread.sameAt).trans
        hread.objectAt_eq
    refine ⟨⟨⟨hserves.packages.trans hindexed, r, hK, hat, hr⟩, ?_⟩, hat⟩
    rw [← hlist, ← hhanded]
    exact hserves.handed
  rw [reconcile_run_of_reads hread] at hl
  rcases Run.leads_bind hl with ⟨v, seconds, resume, hq, rfl⟩ | ⟨v, x, hq, hc⟩
  · exact (hmid hq).1
  · obtain ⟨⟨hkeeping, hmore⟩, hat⟩ := hmid hq
    obtain ⟨t, result, hfin⟩ := finish_eq r x v
    rw [hfin] at hc
    rw [Run.leads_finished hc]
    obtain ⟨store, feed, clock, ht⟩ := exists_finish_eq hfin
    have hpackages : t.packages = v.packages := by rw [ht]
    have hhanded : handed t = handed v := by rw [ht]; rfl
    refine ⟨⟨?_, ?_⟩, ?_⟩
    · exact (congrArg (Table.find? · K) hpackages).trans hkeeping.indexed
    · -- The source is as it was, or it is the outcome, settled.
      cases x with
      | error f =>
        cases hfin
        exact ⟨r, hK, hat, hr⟩
      | ok o =>
        rcases finish_objectAt hfin K with hsame | ⟨hkey, -, -, hwritten⟩
        · exact ⟨r, hK, hsame.trans hat, hr⟩
        · exact ⟨_, hkey, hwritten, hrestores.post_of_leads hq o rfl _⟩
    · rw [Run.state_finished, hhanded]
      exact hmore

/-- What others do keeps the packages that are known. -/
theorem Keeping.apart (hs : Keeping P K s) (h : Apart K s t) : Keeping P K t := by
  obtain ⟨hindexed, r, hK, hat, hr⟩ := hs
  exact ⟨h.packages.trans hindexed, r, hK, h.object.trans hat, hr⟩

/-- So does a reconcile, and it hands over nothing else. -/
theorem Keeping.reconciled (hD : Spares D K) (hs : Keeping P K s)
    (hl : Run.Leads (Apart K)
      ((reconcile (Source.dispatcher (recording D) limit) deleted K).run s) c) :
    Kept P K s c.state := by
  have ⟨hindexed, r, hK, hat, hr⟩ := hs
  cases hget : Call.runOn (Cluster.get K (.only (ManagedKind.kind SourceSpec))) s.cluster with
  | mk cluster x =>
    have hapart := apart_of_get hget
    cases x with
    | error f =>
      rw [reconcile_run, hget] at hl
      rw [Run.leads_finished hl, Run.state_finished]
      exact ⟨hs.apart hapart, hapart.serves.handed⟩
    | ok m =>
      -- The source has not gone away, so it is found.
      have hfound : objectAt K s = m := Cluster.get_eq_ok hget
      rw [← hfound, hat] at hget
      exact kept_of_reads hD ⟨cluster, hget, rfl⟩ hK hr (.inl hindexed) hl

/-- The packages stay known however often the source is reconciled. -/
theorem Onward.kept {s₀ : Listing δ} (hD : Spares D K) (hs : Keeping P K s₀)
    (h : Onward (Source.dispatcher (recording D) limit) deleted K s₀ s) : Kept P K s₀ s := by
  induction h with
  | start => exact ⟨hs, .of_eq rfl⟩
  | others _ ha ih => exact ⟨ih.1.apart ha, ih.2.trans (.of_eq ha.handed)⟩
  | reconciled _ hl ih =>
    obtain ⟨hkeeping, hgrown⟩ := ih.1.reconciled hD hl
    exact ⟨hkeeping, ih.2.trans hgrown⟩

/-- Take a reconcile of a source that reads packages in its status and takes note of them, while
nobody but the reconciles of the source writes its object. However far this reconcile gets and whatever
the later ones meet, the deployer is handed nothing from then on but catalogs with these packages, and
whenever the source is configured it has these packages in its status. -/
theorem packages_kept {s' : Listing δ} (hD : Spares D K) (hread : Reads K s r s')
    (hK : r.key = K) (hlearns : Learns r s')
    (hl : Run.Leads (Apart K)
      ((reconcile (Source.dispatcher (recording D) limit) deleted K).run s) c)
    (ht : Onward (Source.dispatcher (recording D) limit) deleted K c.state t) :
    Grown r.packages (handed s) (handed t) ∧
      ∀ r' : OperatorSource, objectAt K t = some r'.toManifest →
        r'.phase.name = .text Phase.succeeded.text → r'.packages = r.packages := by
  have hr : Shows r.packages r := ⟨fun _ => rfl, fun _ => rfl⟩
  -- What holds after this reconcile goes on to hold.
  obtain ⟨hkeeping, hgrown⟩ := kept_of_reads hD hread hK hr (.inr hlearns) hl
  obtain ⟨⟨-, r₁, -, hat, hshows⟩, hgrown'⟩ := ht.kept hD hkeeping
  refine ⟨hgrown.trans hgrown', fun r' hat' hphase => ?_⟩
  rw [stored_unique hat' hat] at hphase ⊢
  exact hshows.configured hphase

end

/-! ### A source whose deployment has drifted -/

/-- A configured source with packages. -/
def provisioned : OperatorSource where
  name := .text "s"
  ns := .text "n"
  spec := { endpoint := .text "e" }
  phase := { name := .text Phase.succeeded.text }
  packages := .text "etcd,jaeger"

/-- Its deployment lacks a proxy variable, and nothing has been handed over yet. -/
def outdated : Listing Unit where
  cluster := {
    store := {
      objects := (Table.empty.insert ⟨.text Kind.deployment, .text "n", .text "s"⟩
        (.deployment { name := .text "s", ns := .text "n", containers := [{ name := .text "r" }] })).insert
          provisioned.key provisioned.toManifest }
    proxy := { config := { http := .text "x" } }
    surroundings := ([], ()) }

/-- One reconcile of the source. -/
def redeployed (s : Listing Unit) : Run (Listing Unit) (Except Fault Bool) :=
  (reconcile (Source.dispatcher (recording idle) none) Controller.forgetSource provisioned.key).run s

/-- The first reconcile resets the source, and its packages are gone from the status. The second one
hands them to the deployer all the same, and they are back in the status. -/
theorem packages_kept_drifted :
    Learns provisioned outdated ∧ handed (redeployed (redeployed outdated).state).state ≠ [] ∧
      (∀ x ∈ handed (redeployed (redeployed outdated).state).state,
        x.spec.packages = provisioned.packages) ∧
      ∃ r : OperatorSource, objectAt provisioned.key (redeployed (redeployed outdated).state).state =
        some r.toManifest ∧ r.phase.name = .text Phase.succeeded.text ∧
          r.packages = provisioned.packages := by
  have hread : Reads provisioned.key outdated provisioned outdated :=
    reads_of_clear rfl (by decide +kernel) (Table.find?_insert_self _ _ _)
  have hlearns : Learns provisioned outdated := by
    refine ⟨by decide +kernel, .inr ⟨rfl, ?_⟩⟩
    decide +kernel
  obtain ⟨⟨more, hmore, hP⟩, hshows⟩ :=
    packages_kept (t := (redeployed (redeployed outdated).state).state) (spares_idle provisioned.key)
      hread rfl hlearns (.here _) (.reconciled .start (.here _))
  have hhanded : handed (redeployed (redeployed outdated).state).state = more := hmore
  -- The phase is read off the object that the two reconciles leave.
  have hphase : ((objectAt provisioned.key (redeployed (redeployed outdated).state).state).bind
      fun m => (ManagedKind.ofManifest? m : Option OperatorSource).map (·.phase.name)) =
        some (.text Phase.succeeded.text) := by decide +kernel
  refine ⟨hlearns, by decide +kernel, hhanded ▸ hP, ?_⟩
  obtain ⟨m, hat, hm⟩ := Option.bind_eq_some_iff.mp hphase
  obtain ⟨r, hr, hname⟩ := Option.map_eq_some_iff.mp hm
  rw [ManagedKind.ofManifest?_eq_some_iff] at hr
  subst hr
  exact ⟨r, hat, hname, hshows r hat hname⟩

end CatalogOperator.Proofs.Reconcile
