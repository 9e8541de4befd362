import CatalogOperator.Proofs.Activity.Invariants
import CatalogOperator.Proofs.Reconcile.Packages
import CatalogOperator.Proofs.Status.Condition

/-!
# `CatalogOperator.Proofs.Reconcile.Failures`: the failures of operator sources

An operator source is configured in attempts, and several sources may be under way at the same time.
An attempt that is ended from outside leaves the tracked failures alone, and so does one that fills in
no packages. Any other attempt settles whether the source fails, until another one does or the source
is deleted.

* `Note`: what can be noted of an attempt or of a deletion. `noting`, `notingDeletion`: a deployer and
  a deletion that take notes.
* `failure?`: the failure of a source, from the notes alone.
* `Balances`: the tracked failures are those from the notes. `Balances.settle`: a note that settles a
  source is entered.
* `Office`: the reconciles that are under way. `Reached`: how they take turns.
* `tracked`: the tracked failures are those from the notes after every turn, and the degraded
  condition lists them.
-/

set_option autoImplicit false

namespace CatalogOperator.Proofs.Reconcile

/-! ### Notes -/

/-- What is noted of an operator source: an attempt to configure it, with how ensuring its registry
resources and filling in its packages came out, as far as the attempt got; or that it was found to be
deleted. -/
inductive Note where
  | attempt (name : Value) (ensured : Except Fault Unit) (filled : Option (Except Fault Unit))
  | deletion (name : Value)
  deriving DecidableEq

namespace Note

/-- The name of the source. -/
def name : Note → Value
  | attempt name _ _ => name
  | deletion name => name

/-- Whether a note settles if its source fails. Of attempts only those do that have come to an end of
their own: the registry resources could not be ensured, or they were and the packages were filled
in. -/
def settles : Note → Bool
  | attempt _ (.error f) _ => !f.isCancellation
  | attempt _ (.ok _) (some (.ok _)) => true
  | attempt _ (.ok _) _ => false
  | deletion _ => true

/-- Why the registry resources could not be ensured. -/
def failure? : Note → Option Fault
  | attempt _ (.error f) _ => some f
  | attempt _ (.ok _) _ => none
  | deletion _ => none

/-- The same note with how filling in packages came out. -/
def fill (ended : Except Fault Unit) : Note → Note
  | attempt name ensured _ => attempt name ensured (some ended)
  | deletion name => deletion name

end Note

/-- The failure of a source, going by the latest of the notes that settles it. The notes have the
latest one first. -/
def failure? (notes : List Note) (name : Value) : Option Fault :=
  (notes.find? fun n => n.name = name && n.settles).bind Note.failure?

/-- What is tracked of a failure. -/
def cause (f : Fault) : Fault :=
  .degraded .ensureResources (some f.message)

/-- Whether the tracked failures are those from the notes. -/
def Balances (t : ErrorTracker) (notes : List Note) : Prop :=
  ∀ name, t.find? name = (failure? notes name).map cause

/-- Without notes nothing is tracked. -/
theorem balances_empty : Balances Table.empty [] :=
  fun _ => rfl

section

variable {t : ErrorTracker} {notes : List Note} {n : Note}

/-- The latest note on a source decides, unless it settles nothing. -/
theorem failure?_cons (n : Note) (notes : List Note) (name : Value) :
    failure? (n :: notes) name =
      if n.name = name ∧ n.settles = true then n.failure? else failure? notes name := by
  unfold failure?
  rw [List.find?_cons]
  by_cases h : n.name = name ∧ n.settles = true
  · simp [h]
  · rw [if_neg h]
    split
    · next htrue => exact absurd (by simpa using htrue) h
    · rfl

/-- A note that settles nothing changes nothing. -/
theorem Balances.skip (h : Balances t notes) (hn : n.settles = false) : Balances t (n :: notes) := by
  intro name
  rw [failure?_cons, if_neg (by simp [hn])]
  exact h name

/-- A note that settles a source is entered: its failure is tracked if it has one, and is tracked no
longer if it has none. -/
theorem Balances.settle (h : Balances t notes) (hn : n.settles = true) :
    Balances (match n.failure? with
      | some f => t.insert n.name (cause f)
      | none => t.erase n.name) (n :: notes) := by
  intro name
  rw [failure?_cons]
  cases n.failure? with
  | some f =>
    dsimp only
    rw [Table.find?_insert, h name]
    by_cases hname : n.name = name
    · simp [hname, hn]
    · simp [hname]
  | none =>
    dsimp only
    rw [Table.find?_erase, h name]
    by_cases hname : n.name = name
    · simp [hname, hn]
    · simp [hname]

/-! ### The degraded condition -/

/-- What the degraded condition says of a source. -/
def line (notes : List Note) (name : Value) : String :=
  name.plain ++ ": " ++ ((failure? notes name).map Fault.message).getD ""

/-- Whether a condition is true exactly if some source fails, and lists the sources that do, each of
them once. -/
structure SumsUp (notes : List Note) (names : List Value) (c : Condition) : Prop where
  distinct : names.Nodup
  failing : ∀ name, name ∈ names ↔ (failure? notes name).isSome = true
  status : c.status = true ↔ ∃ name, (failure? notes name).isSome = true
  message : c.message = "; ".intercalate (names.map (line notes))

/-- What is tracked are the sources that fail. -/
theorem Balances.mem_keys_iff (h : Balances t notes) (name : Value) :
    name ∈ t.keys ↔ (failure? notes name).isSome = true := by
  have hfound : (t.find? name).isSome = (failure? notes name).isSome := by
    rw [h name, Option.isSome_map]
  rw [← hfound, Option.isSome_iff_exists]
  constructor
  · intro hname
    obtain ⟨e, he, rfl⟩ := List.mem_map.mp hname
    exact ⟨e.2, Table.mem_entries_iff.mp he⟩
  · rintro ⟨f, hf⟩
    exact List.mem_map_of_mem (Table.mem_entries_iff.mpr hf)

/-- The condition for tracked failures that are those from the notes sums them up. -/
theorem Balances.sumsUp (h : Balances t notes) : SumsUp notes ((Status.inOrder t).map (·.1))
    (Condition.ofFailures (Status.inOrder t)) := by
  have hperm := Status.perm_keys t
  have hfailing : ∀ name, name ∈ (Status.inOrder t).map (·.1) ↔
      (failure? notes name).isSome = true := fun name => hperm.mem_iff.trans (h.mem_keys_iff name)
  refine ⟨hperm.nodup_iff.mpr t.nodup_keys, hfailing, ?_, ?_⟩
  · rw [Status.status_ofFailures]
    constructor
    · intro hne
      obtain ⟨e, he⟩ := List.exists_mem_of_ne_nil _ hne
      exact ⟨e.1, (hfailing e.1).mp (List.mem_map_of_mem he)⟩
    · rintro ⟨name, hname⟩
      obtain ⟨e, he, -⟩ := List.mem_map.mp ((hfailing name).mpr hname)
      exact List.ne_nil_of_mem he
  · rw [Status.message_ofFailures, List.map_map]
    refine congrArg _ (List.map_congr_left fun e he => ?_)
    have hfound := Table.mem_entries_iff.mp ((Status.perm_inOrder t).mem_iff.mp he)
    rw [h e.1, Option.map_eq_some_iff] at hfound
    obtain ⟨f, hf, hcause⟩ := hfound
    simp only [Function.comp_apply, line, hf, ← hcause]
    rfl

end

/-! ### Taking notes -/

section

variable {δ : Type}

/-- What all reconciles share, with the notes taken so far. -/
abbrev Ledger (δ : Type) : Type :=
  Shared (List Note × δ)

/-- The notes taken so far, the latest one first. -/
def history (s : Ledger δ) : List Note :=
  s.cluster.surroundings.1

/-- A cluster without the notes. -/
def unnoted (c : Cluster (List Note × δ)) : Cluster δ :=
  { c with surroundings := c.surroundings.2 }

/-- The cluster with the notes of another one. -/
def renoted (c : Cluster δ) (whole : Cluster (List Note × δ)) : Cluster (List Note × δ) :=
  { c with surroundings := (whole.surroundings.1, c.surroundings) }

/-- A cluster after the notes have been gone over. -/
def revised (f : List Note → List Note) (c : Cluster (List Note × δ)) : Cluster (List Note × δ) :=
  { c with surroundings := (f c.surroundings.1, c.surroundings.2) }

/-- A deployer that notes how ensuring the registry resources and filling in the packages come out. -/
def noting (D : Deployer δ) : Deployer (List Note × δ) where
  ensure trace r := do
    let x ← Activity.zoom unnoted renoted (D.ensure trace r)
    Activity.step fun c => (revised (.attempt r.name x.2 none :: ·) c, ())
    return x
  populate r c :=
    let (inner, filled, ended) := D.populate r (unnoted c)
    (revised (List.modifyHead (Note.fill ended)) (renoted inner c), filled, ended)

/-- Forgets the failure of a source that is gone, and notes that it is. -/
def notingDeletion : DeletionHook (List Note × δ) := fun key => do
  Controller.forgetSource key
  ExceptT.lift (Shared.modify fun s =>
    { s with cluster := revised (.deletion key.name :: ·) s.cluster })

/-- Whether the tracked failures are those from the notes. -/
def Balanced (s : Ledger δ) : Prop :=
  Balances s.tracker (history s)

/-- Whether neither the tracked failures nor the notes have changed. -/
structure SameBooks (s s' : Ledger δ) : Prop where
  tracker : s'.tracker = s.tracker
  history : history s' = history s

variable {s s' t : Ledger δ} {D : Deployer δ} {r : OperatorSource}

/-- The tracked failures stay those from the notes if neither changes. -/
theorem Balanced.of_same (hs : Balanced s) (h : SameBooks s s') : Balanced s' := by
  unfold Balanced
  rw [h.tracker, h.history]
  exact hs

/-- The tracked failures are those from the notes, given what the notes are. -/
theorem Balanced.of_history {notes : List Note} (h : history s = notes)
    (hs : Balances s.tracker notes) : Balanced s :=
  (congrArg (Balances s.tracker) h).mpr hs

/-! ### Attempts -/

/-- The deployer itself gets at neither. -/
theorem sameBooks_ensure (D : Deployer δ) (trace : Trace) (x : CatalogSourceConfig) :
    (Shared.onCluster (Activity.zoom unnoted renoted (D.ensure trace x))).Obeys SameBooks := by
  refine obeys_onCluster (Q := fun c c' => c'.surroundings.1 = c.surroundings.1)
    (fun _ _ h => ⟨rfl, h⟩) ?_
  have hinner : (D.ensure trace x).Obeys fun _ _ => True := fun c => Run.obeys_anything _ c
  refine Activity.Obeys.zoom (fun whole c _ => ?_) hinner
  rfl

/-- Two activities in sequence on the cluster are the activities on the cluster in sequence. -/
theorem onCluster_bind {α β : Type} (p : Activity (Cluster δ) α) (f : α → Activity (Cluster δ) β) :
    Shared.onCluster (p >>= f) = Shared.onCluster p >>= fun a => Shared.onCluster (f a) :=
  funext fun s => Run.zoom_bind Shared.cluster (fun cluster s => { s with cluster })
    (fun _ _ _ => rfl) (fun _ _ => rfl) (p s.cluster) f s

/-- Ensuring the registry resources adds one note. -/
theorem maintains_ensure (D : Deployer δ) (trace : Trace) (x : CatalogSourceConfig)
    (hs : Balanced s) :
    (Shared.onCluster ((noting D).ensure trace x) s).Maintains Balanced fun t y =>
      ∃ notes, history t = .attempt x.name y.2 none :: notes ∧ Balances t.tracker notes := by
  have hinner := (sameBooks_ensure D trace x s).maintains (fun _ _ h hs => hs.of_same h) hs
  unfold noting
  rw [onCluster_bind]
  exact hinner.andThen fun y t ht => ⟨history t, rfl, ht⟩

/-- Filling in the packages completes that note. -/
theorem maintains_populate (D : Deployer δ) (x : CatalogSourceConfig) {name : Value}
    {notes : List Note} (ht : history t = .attempt name (.ok ()) none :: notes) :
    (Shared.populate (noting D) x t).Maintains Balanced fun u y =>
      u.tracker = t.tracker ∧ history u = .attempt name (.ok ()) (some y.2) :: notes :=
  ⟨rfl, congrArg (List.modifyHead (Note.fill (D.populate x (unnoted t.cluster)).2.2)) ht⟩

/-- Whether the latest note is on an attempt to configure a source that ends so, and settles if the
source fails exactly if the reconciler has returned. -/
def Reported (r : OperatorSource) (t : Ledger δ) (x : OperatorSource × Except Fault Verdict) : Prop :=
  ∃ ensured filled notes, history t = .attempt r.name ensured filled :: notes ∧
    ((Note.attempt r.name ensured filled).settles = true ↔ ∃ v, x.2 = .ok v)

/-- Each attempt is noted at its end, and the tracked failures are those from the notes then. -/
theorem maintains_deploying (D : Deployer δ) (trace : Trace) (r : OperatorSource) (packages : Value)
    (hs : Balanced s) : (deploying (noting D) trace r packages s).Maintains Balanced fun t x =>
      Balanced t ∧ Reported r t x := by
  -- Between the end of the deployer and that of the attempt nobody sleeps. The books may be out of
  -- balance in between, and nobody sees it.
  refine (maintains_ensure D trace (r.derived packages) hs).andThen ?_
  rintro ⟨derived, ensured⟩ t ⟨notes, hnotes, ht⟩
  change history t = .attempt r.name ensured none :: notes at hnotes
  cases ensured with
  | error f =>
    dsimp only
    split
    · next hcancelled =>
      have hn : (Note.attempt r.name (.error f) none).settles = false := by
        simp [Note.settles, hcancelled]
      have hbalanced : Balanced t := .of_history hnotes (ht.skip hn)
      exact ⟨hbalanced, _, _, notes, hnotes, by simp [hn]⟩
    · next hcancelled =>
      have hn : (Note.attempt r.name (.error f) none).settles = true := by
        simpa [Note.settles] using hcancelled
      -- Tracking a failure takes no notes.
      let u : Ledger δ := { t with tracker := t.tracker.insert r.name (cause f) }
      have hu : history u = .attempt r.name (.error f) none :: notes := hnotes
      have hbalanced : Balanced u := .of_history hu (ht.settle hn)
      exact ⟨hbalanced, _, _, notes, hu, by simp [hn]⟩
  | ok _ =>
    refine (maintains_populate D derived hnotes).andThen ?_
    rintro ⟨_, populated⟩ u ⟨htracker, hu⟩
    rw [← htracker] at ht
    cases populated with
    | error g =>
      -- What was tracked before stays, although the registry resources have been ensured.
      have hn : (Note.attempt r.name (.ok ()) (some (.error g))).settles = false := rfl
      have hbalanced : Balanced u := .of_history hu (ht.skip hn)
      exact ⟨hbalanced, _, _, notes, hu, by simp [hn]⟩
    | ok _ =>
      have hn : (Note.attempt r.name (.ok ()) (some (.ok ()))).settles = true := rfl
      let v : Ledger δ := { u with tracker := u.tracker.erase r.name }
      have hv : history v = .attempt r.name (.ok ()) (some (.ok ())) :: notes := hu
      have hbalanced : Balanced v := .of_history hv (ht.settle hn)
      exact ⟨hbalanced, _, _, notes, hv, by simp [hn]⟩

/-- Whatever configuring a source is interrupted by, the tracked failures are those from the notes. -/
theorem maintains_configure (D : Deployer δ) (trace : Trace) (r : OperatorSource) (hs : Balanced s) :
    (Source.configure (noting D) trace r s).Maintains Balanced fun t x =>
      Balanced t ∧ Reported r t x := by
  rw [configure_eq]
  have hrecord : (Source.recordPackages r s).Maintains Balanced fun t _ => Balanced t := hs
  exact hrecord.andThen fun packages t ht => maintains_deploying D trace r packages ht

/-! ### The reconciles -/

/-- Checking a source is neither an attempt nor a deletion. -/
theorem maintains_check (trace : Trace) (r : OperatorSource) (hs : Balanced s) :
    (Source.check trace r s).Maintains Balanced fun t _ => Balanced t := by
  rw [check_run]
  have hnotes := surroundings_workloadIsStale r.ns r.name s.cluster
  cases hstale : (Cluster.workloadIsStale r.ns r.name).runOn s.cluster with
  | mk cluster x =>
    rw [hstale] at hnotes
    have hcluster : history { s with cluster } = history s := congrArg Prod.fst hnotes
    rcases x with f | stale
    · exact .of_history hcluster hs
    · cases stale with
      | false => exact .of_history hcluster hs
      | true => exact .of_history hcluster hs

/-- The dispatch of a source keeps the tracked failures those from the notes, even if it is cancelled.
-/
theorem maintains_dispatch (limit : Option Deadline) (D : Deployer δ) (trace : Trace)
    (r : OperatorSource) (hs : Balanced s) :
    ((Source.dispatcher (noting D) limit).dispatch trace r s).Maintains Balanced
      fun t _ => Balanced t := by
  by_cases hc : r.phase.name = .text Phase.configuring.text
  · rw [dispatch_of_phase (Source.configuring (noting D)) rfl (limitFault?_eq_none rfl) hc]
    exact ((maintains_configure D _ r hs).within _).bind fun x t ht => ht.1
  by_cases hp : r.phase.name = .text Phase.succeeded.text
  · rw [dispatch_of_phase Source.succeeded rfl (limitFault?_eq_none rfl) hp]
    exact ((maintains_check [] r hs).within _).bind fun x t ht => ht
  · obtain ⟨x, hx⟩ := exists_dispatch_eq limit (noting D) hc hp trace s
    rw [hx]
    exact hs

/-- Nor is writing it back. -/
theorem maintains_finish (r : OperatorSource) (x : Except Fault (Outcome OperatorSource))
    (hs : Balanced s) : (finish r x s).Maintains Balanced fun t _ => Balanced t := by
  -- Finishing changes the cluster, but not its surroundings, where the notes are.
  obtain ⟨t, result, hfin⟩ := finish_eq r x s
  obtain ⟨store, feed, clock, rfl⟩ := exists_finish_eq hfin
  rw [hfin]
  exact hs

/-- A deletion is noted, and the failure of the source is tracked no longer. -/
theorem maintains_deletion (K : ObjectKey) (hs : Balanced s) :
    ((notingDeletion K).run s).Maintains Balanced fun t _ => Balanced t :=
  hs.settle (n := .deletion K.name) rfl

/-- A reconcile of a source leaves the tracked failures as they are in the notes whenever it falls
asleep and when it ends. -/
theorem maintains_reconcile (limit : Option Deadline) (D : Deployer δ) (K : ObjectKey)
    (hs : Balanced s) :
    ((reconcile (Source.dispatcher (noting D) limit) notingDeletion K).run s).Maintains Balanced
      fun t _ => Balanced t := by
  rw [reconcile_run, Cluster.runOn_get]
  let u : Ledger δ := { s with cluster := { s.cluster with
    store := (s.cluster.store.get K (.only (ManagedKind.kind SourceSpec))).1 } }
  have hu : Balanced u := hs
  cases (s.cluster.store.get K (.only (ManagedKind.kind SourceSpec))).2 with
  | error f => exact hu
  | ok m =>
    dsimp only
    split
    · exact maintains_deletion K hu
    · next r _ =>
      have hdispatch := maintains_dispatch limit D [] r hu
      exact hdispatch.bind fun x t ht => maintains_finish r x ht

/-! ### Sources in turn -/

/-- The reconciles of operator sources that are under way: what they share, and what is left of those
that are asleep. -/
structure Office (δ : Type) where
  shared : Ledger δ
  asleep : Value → Option (Wake → Ledger δ → Run (Ledger δ) (Except Fault Bool)) := fun _ => none

namespace Office

/-- After the reconcile of a source has gone on until it fell asleep or ended. -/
def after (o : Office δ) (name : Value) (run : Run (Ledger δ) (Except Fault Bool)) : Office δ :=
  ⟨run.state, Function.update o.asleep name run.rest?⟩

/-- A reconcile of a source begins. -/
def begin (o : Office δ) (D : Deployer δ) (limit : Option Deadline) (ns name : Value) : Office δ :=
  o.after name ((reconcile (Source.dispatcher (noting D) limit) notingDeletion
    ⟨.text Kind.operatorSource, ns, name⟩).run o.shared)

/-- The reconcile of a source is resumed, if it is asleep. -/
def wake (o : Office δ) (name : Value) (w : Wake) : Office δ :=
  match o.asleep name with
  | none => o
  | some resume => o.after name (resume w o.shared)

end Office

/-- The states met while the operator sources of a namespace are reconciled, one reconcile of each
source at a time, from a state on in which nothing is tracked. Others may do anything in between, but
take no notes and track no failures. -/
inductive Reached (D : Deployer δ) (limit : Option Deadline) (ns : Value) : Office δ → Prop
  | start {s : Ledger δ} : s.tracker = Table.empty → history s = [] →
    Reached D limit ns { shared := s }
  | begins {o : Office δ} {name : Value} : Reached D limit ns o → o.asleep name = none →
    Reached D limit ns (o.begin D limit ns name)
  | woken {o : Office δ} (name : Value) (w : Wake) : Reached D limit ns o →
    Reached D limit ns (o.wake name w)
  | others {o : Office δ} {s : Ledger δ} : Reached D limit ns o → SameBooks o.shared s →
    Reached D limit ns { o with shared := s }

/-- Whether the tracked failures are those from the notes, and stay so whichever of the sleeping
reconciles goes on. -/
structure Orderly (o : Office δ) : Prop where
  balanced : Balanced o.shared
  asleep : ∀ name resume, o.asleep name = some resume → ∀ w s, Balanced s →
    (resume w s).Maintains Balanced fun t _ => Balanced t

variable {o : Office δ} {ns : Value} {limit : Option Deadline}

/-- One stretch of a reconcile keeps this up. -/
theorem Orderly.after (ho : Orderly o) (name : Value) {run : Run (Ledger δ) (Except Fault Bool)}
    (h : run.Maintains Balanced fun t _ => Balanced t) : Orderly (o.after name run) where
  balanced := h.state
  asleep := Run.forall_update_rest? ho.asleep name fun _ hrest w _ hs => h.of_rest? hrest w hs

/-- So does every turn. -/
theorem Reached.orderly (h : Reached D limit ns o) : Orderly o := by
  -- A sleeping reconcile may be resumed on whatever the others have made of the books, so that it goes
  -- on from any balanced state is part of what is kept up.
  induction h with
  | @start s htracker hhistory =>
    refine ⟨.of_history hhistory ?_, fun name resume h => nomatch h⟩
    rw [htracker]
    exact balances_empty
  | begins _ _ ih => exact ih.after _ (maintains_reconcile limit D _ ih.balanced)
  | @woken o name w _ ih =>
    unfold Office.wake
    split
    · exact ih
    · next resume hresume => exact ih.after name (ih.asleep name resume hresume w _ ih.balanced)
  | others _ hsame ih => exact ⟨ih.balanced.of_same hsame, ih.asleep⟩

/-- After any turns that the reconciles of operator sources take, the failures that are tracked are
those from the notes: there is one for a source exactly if the latest attempt that came to an end of its
own since the source was last found to be deleted could not ensure its registry resources, and it has
the text of that failure. Every attempt to configure a source is noted when it ends, and came to an end
of its own exactly if the reconciler returned.

The degraded condition is true exactly if some source has failed so, and lists the sources that have,
each of them once. If all their names are texts, there is such a condition, and the names are in
order. -/
theorem tracked (h : Reached D limit ns o) :
    (∀ name, o.shared.tracker.find? name = (failure? (history o.shared) name).map cause) ∧
      (∀ trace r s, Balanced s →
        (Source.configure (noting D) trace r s).Maintains Balanced (Reported r)) ∧
      (∀ c, Condition.degraded? o.shared.tracker = .ok c →
        ∃ names, SumsUp (history o.shared) names c) ∧
      ((∀ name, (failure? (history o.shared) name).isSome = true → ∃ x, name = .text x) →
        ∃ (c : Condition) (xs : List String), Condition.degraded? o.shared.tracker = .ok c ∧
          SumsUp (history o.shared) (xs.map Value.text) c ∧ xs.Pairwise (· < ·)) := by
  have hbalanced : Balances o.shared.tracker (history o.shared) := h.orderly.balanced
  refine ⟨hbalanced, fun trace r s hs => ?_, fun c hc => ?_, fun htexts => ?_⟩
  · exact (maintains_configure D trace r hs).mono fun t x hx => hx.2
  · rw [Status.degraded?_eq_ok hc]
    exact ⟨_, hbalanced.sumsUp⟩
  · have hkeys : ∀ name ∈ o.shared.tracker.keys, ∃ x, name = .text x :=
      fun name hname => htexts name ((hbalanced.mem_keys_iff name).mp hname)
    obtain ⟨xs, hxs, hsorted⟩ := Status.exists_texts_inOrder hkeys
    exact ⟨_, xs, Status.degraded?_of_texts hkeys, hxs ▸ hbalanced.sumsUp, hsorted⟩

end

/-! ### Sources without a route -/

/-- A deployer that finds no route to the registry, unless it is cancelled before. -/
def congested : Deployer Unit where
  ensure _ r := do
    match ← Activity.sleep 1 with
    | .elapsed => return (r, .error (.transient "no route"))
    | .cancelled => return (r, .error (.cancelled ""))
  populate r c := (c, r, .ok ())

/-- A source that is being configured. -/
def awaiting (name : Value) : OperatorSource where
  name
  ns := .text "n"
  spec := { endpoint := .text "e" }
  phase := { name := .text Phase.configuring.text }
  packages := .text ""

/-- Two sources that are being configured, none of which has been attempted. -/
def waitingRoom (name other : Value) : Office Unit where
  shared := {
    cluster := {
      store := {
        objects := (Table.empty.insert (awaiting name).key (awaiting name).toManifest).insert
          (awaiting other).key (awaiting other).toManifest }
      surroundings := ([], ()) } }

/-- A reconcile begins of one of them. -/
def Office.tried (o : Office Unit) (name : Value) : Office Unit :=
  o.begin congested none (.text "n") name

/-- Two sources. The first one is overtaken by the second one, which fails before it, and is attempted
once more. Its second attempt is cancelled. -/
def overtaken : Office Unit :=
  ((((((waitingRoom (.text "b") (.text "a")).tried (.text "b")).tried (.text "a")).wake
    (.text "a") .elapsed).wake (.text "b") .elapsed).tried (.text "b")).wake (.text "b") .cancelled

/-- The three attempts are what an office may do. -/
theorem reached_overtaken : Reached congested none (.text "n") overtaken := by
  have hidle : ∀ {o : Office Unit} {name : Value}, (o.asleep name).isNone = true →
      o.asleep name = none := Option.isNone_iff_eq_none.mp
  have hfirst : Reached congested none (.text "n")
      (((waitingRoom (.text "b") (.text "a")).tried (.text "b")).tried (.text "a")) :=
    .begins (.begins (.start rfl rfl) rfl) (hidle (by decide +kernel))
  exact .woken _ _ (.begins (.woken _ _ (.woken _ _ hfirst)) (hidle (by decide +kernel)))

/-- Both of them are tracked, in the order in which they failed, and listed in the order of their
names. -/
theorem tracked_overtaken :
    (∀ name, overtaken.shared.tracker.find? name =
      (failure? (history overtaken.shared) name).map cause) ∧
    overtaken.shared.tracker.keys = [.text "a", .text "b"] ∧
    ∃ (c : Condition) (xs : List String), Condition.degraded? overtaken.shared.tracker = .ok c ∧
      SumsUp (history overtaken.shared) (xs.map Value.text) c ∧ xs.Pairwise (· < ·) ∧
      c.message = "a: no route; b: no route" := by
  obtain ⟨htracker, -, -, hcondition⟩ := tracked reached_overtaken
  have hkeys : overtaken.shared.tracker.keys = [.text "a", .text "b"] := by decide +kernel
  have htexts : ∀ name, (failure? (history overtaken.shared) name).isSome = true →
      ∃ x, name = .text x := by
    intro name hname
    rw [← Balances.mem_keys_iff htracker, hkeys] at hname
    rcases List.mem_cons.mp hname with rfl | hname
    · exact ⟨_, rfl⟩
    · exact ⟨_, List.mem_singleton.mp hname⟩
  obtain ⟨c, xs, hc, hsum, hsorted⟩ := hcondition htexts
  have hmessage : c.message = "a: no route; b: no route" := by
    -- The names are in order already, so sorting changes nothing.
    have horder : Status.inOrder overtaken.shared.tracker = overtaken.shared.tracker.entries :=
      List.mergeSort_of_pairwise (by decide +kernel)
    rw [Status.degraded?_eq_ok hc, horder]
    decide +kernel
  exact ⟨htracker, hkeys, c, xs, hc, hsum, hsorted, hmessage⟩

/-- Two sources of which one has a number for a name, after both have been attempted. -/
def numbered : Office Unit :=
  ((((waitingRoom (.int 7) (.text "s")).tried (.int 7)).tried (.text "s")).wake (.int 7)
    .elapsed).wake (.text "s") .elapsed

/-- Both of them fail. Their names have no order, so there is no degraded condition. -/
theorem not_summedUp_numbered :
    Reached congested none (.text "n") numbered ∧
      failure? (history numbered.shared) (.int 7) = some (.transient "no route") ∧
      failure? (history numbered.shared) (.text "s") = some (.transient "no route") ∧
      ¬ ∃ c, Condition.degraded? numbered.shared.tracker = .ok c := by
  have htried : ((waitingRoom (.int 7) (.text "s")).tried (.int 7)).asleep (.text "s") = none :=
    Option.isNone_iff_eq_none.mp (by decide +kernel)
  have herror : (Condition.degraded? numbered.shared.tracker).isOk = false := by decide +kernel
  refine ⟨.woken _ _ (.woken _ _ (.begins (.begins (.start rfl rfl) rfl) htried)), by decide +kernel,
    by decide +kernel, ?_⟩
  rintro ⟨c, hc⟩
  rw [hc] at herror
  cases herror

end CatalogOperator.Proofs.Reconcile
