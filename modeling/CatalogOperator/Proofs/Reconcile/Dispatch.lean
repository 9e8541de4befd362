import CatalogOperator.Catalog.Reconcilers
import CatalogOperator.Proofs.Activity.Interference
import CatalogOperator.Proofs.Store.Objects
import CatalogOperator.Source.Reconcilers

/-!
# `CatalogOperator.Proofs.Reconcile.Dispatch`: what a dispatch may come out as

The dispatchers of the two managed kinds have the same four phases. `Verdicts` lists all that the
dispatch of a resource may come out as, phase by phase, whatever the deployer does, whichever calls
fail, and however others change the cluster while a handler sleeps.

* `Standard`: the two dispatchers over one deployer.
* `Spares`: a deployer that leaves the object under a key alone.
* `keeps_dispatch`: the dispatch of a resource leaves the object under the key alone as well, and
  comes out as one of the verdicts for its phase.
-/

set_option autoImplicit false

namespace CatalogOperator.Proofs.Reconcile

/-! ### The reconciler of a phase -/

section Tables

variable {κ α : Type} [DecidableEq κ]

/-- What stands in a table that was made of a list comes from the list. -/
theorem mem_of_find?_ofList {es : List (κ × α)} {k : κ} {v : α}
    (h : (Table.ofList es).find? k = some v) : (k, v) ∈ es := by
  -- The entries are put in one by one, so the claim is about any table to start from.
  have put : ∀ (es : List (κ × α)) (t : Table κ α),
      (es.foldl (fun t e => t.insert e.1 e.2) t).find? k = some v →
        (k, v) ∈ es ∨ t.find? k = some v := by
    intro es
    induction es with
    | nil => exact fun _ h => .inr h
    | cons e rest ih =>
      intro t h
      rcases ih _ h with hm | hf
      · exact .inl (List.mem_cons_of_mem _ hm)
      · rw [Table.find?_insert] at hf
        split at hf
        · rename_i hk
          cases hf
          exact .inl (hk ▸ List.mem_cons_self)
        · exact .inr hf
  rcases put es Table.empty h with hm | hf
  · exact hm
  · cases hf

/-- What a table of reconcilers by their phase has for a name comes from the list of reconcilers. -/
theorem mem_of_find?_phases {σ R : Type} {l : List (Reconciler σ R)} {name : String}
    {rec : Reconciler σ R}
    (h : (Table.ofList (l.map fun rec => (rec.phase, rec))).find? name = some rec) : rec ∈ l := by
  obtain ⟨rec', hmem, heq⟩ := List.mem_map.1 (mem_of_find?_ofList h)
  cases heq
  exact hmem

/-- Nothing stands under what is no key of a table. -/
theorem find?_eq_none_of_not_mem_keys {t : Table κ α} {k : κ} (h : k ∉ t.keys) :
    t.find? k = none := by
  unfold Table.find?
  rw [Option.map_eq_none_iff, List.find?_eq_none]
  intro e he hk
  exact h (of_decide_eq_true hk ▸ List.mem_map_of_mem he)

end Tables

section

variable {δ Spec Packages : Type} [ManagedKind Spec Packages]

/-- The dispatchers of the two managed kinds, with any deadline. -/
inductive Standard (D : Deployer δ) :
    {Spec Packages : Type} → [ManagedKind Spec Packages] →
      Dispatcher (Shared δ) (Managed Spec Packages) → Prop
  | source (limit : Option Deadline) : Standard D (Source.dispatcher D limit)
  | catalog (limit : Option Deadline) : Standard D (Catalog.dispatcher D limit)

/-- There are four reconcilers of operator sources, one for each phase. -/
theorem source_reconciler_cases {D : Deployer δ} {limit : Option Deadline} {name : String}
    {rec : Reconciler (Shared δ) OperatorSource}
    (h : (Source.dispatcher D limit).table.find? name = some rec) :
    rec = .initial (fun r => .ok r.problem?) ∨ rec = Source.configuring D ∨
      rec = Source.succeeded ∨ rec = .failed := by
  have hmem := mem_of_find?_phases h
  simpa only [List.mem_cons, List.not_mem_nil, or_false] using hmem

/-- There are four reconcilers of catalog source configs, one for each phase. -/
theorem catalog_reconciler_cases {D : Deployer δ} {limit : Option Deadline} {name : String}
    {rec : Reconciler (Shared δ) CatalogSourceConfig}
    (h : (Catalog.dispatcher D limit).table.find? name = some rec) :
    rec = .initial CatalogSourceConfig.problem? ∨ rec = Catalog.configuring D ∨
      rec = Catalog.succeeded ∨ rec = .failed := by
  have hmem := mem_of_find?_phases h
  simpa only [List.mem_cons, List.not_mem_nil, or_false] using hmem

/-- The object under a key. -/
def objectAt (K : ObjectKey) (s : Shared δ) : Option Manifest :=
  s.cluster.store.objects.find? K

/-- Whether two states have the same object under a key. -/
def SameAt (K : ObjectKey) (s s' : Shared δ) : Prop :=
  objectAt K s' = objectAt K s

/-- A deployer that leaves the object under a key alone, whatever else it does. -/
structure Spares (D : Deployer δ) (K : ObjectKey) : Prop where
  ensure : ∀ trace r, (D.ensure trace r).Keeps (fun c => c.store.objects.find? K) fun _ => True
  populate : ∀ r c, (D.populate r c).1.store.objects.find? K = c.store.objects.find? K

/-- A deployer that does not rename the resource it works on, and fills in nothing but packages. -/
structure KeepsIdentity (D : Deployer δ) : Prop where
  ensure : ∀ trace r,
    (D.ensure trace r).Keeps (fun _ => ()) fun x => x.1.ns = r.ns ∧ x.1.name = r.name
  populate : ∀ r c, ∃ packages, (D.populate r c).2.1 = { r with packages }

/-! ### Verdicts -/

/-- What the dispatch of a resource may come out as. -/
inductive Verdicts (D : Deployer δ) (r : Managed Spec Packages) :
    Except Fault (Outcome (Managed Spec Packages)) → Prop
  /-- The reconcile ends in a fault. -/
  | fault (f : Fault) : Verdicts D r (.error f)
  /-- A new resource is valid. -/
  | scheduled : r.phase.name = .text Phase.initial.text →
      Verdicts D r (.ok { resource := r, next := some (.into .configuring scheduledMessage) })
  /-- A new resource is invalid, for a reason. -/
  | rejected (message : String) : r.phase.name = .text Phase.initial.text → message ≠ "" →
      Verdicts D r (.ok { resource := r, next := some (.into .failed message) })
  /-- The registry resources are there. -/
  | configured (out : Managed Spec Packages) : r.phase.name = .text Phase.configuring.text →
      (KeepsIdentity D → out.key = r.key) →
      Verdicts D r (.ok { resource := out, next := some (.into .succeeded) })
  /-- The registry resources could not be made, which is tried again. -/
  | retried (out : Managed Spec Packages) (f : Fault) :
      r.phase.name = .text Phase.configuring.text → (KeepsIdentity D → out.key = r.key) →
      Verdicts D r
        (.ok { resource := out, next := some (.into .configuring f.message), error := some f })
  /-- A configured resource is as it should be. -/
  | converged : r.phase.name = .text Phase.succeeded.text → Verdicts D r (.ok { resource := r })
  /-- A configured resource could not be checked, which is tried again. -/
  | postponed (f : Fault) : r.phase.name = .text Phase.succeeded.text →
      Verdicts D r (.ok { resource := r, error := some f })
  /-- A configured resource has to be configured anew. -/
  | reset : r.phase.name = .text Phase.succeeded.text →
      Verdicts D r (.ok { resource := r.resetStatus, next := some (.into .configuring) })
  /-- A failed resource stays as it is. -/
  | ended : r.phase.name = .text Phase.failed.text → Verdicts D r (.ok { resource := r })

/-- Whether the work of a handler is concluded with one of the verdicts for the phase of the
resource, be the deadline over or not. -/
def Concludes (D : Deployer δ) (d : Dispatcher (Shared δ) (Managed Spec Packages))
    (r : Managed Spec Packages) (x : Managed Spec Packages × Except Fault Verdict) : Prop :=
  ∀ expired, Verdicts D r (d.conclude r x.1 x.2 expired)

variable {D : Deployer δ} {r out : Managed Spec Packages}
  {d : Dispatcher (Shared δ) (Managed Spec Packages)} {expired : Bool}

/-- A handler that failed leads to a fault, unless it was a store call that failed. -/
theorem conclude_error (d : Dispatcher (Shared δ) (Managed Spec Packages))
    (r out : Managed Spec Packages) (expired : Bool) (f : Fault) :
    (∃ g, d.conclude r out (.error f) expired = .error g) ∨
      f.isStoreFailure = true ∧
        d.conclude r out (.error f) expired =
          if r.phase.isIn .succeeded then .ok { resource := r, error := some f }
          else .ok {
            resource := out, next := some ⟨r.phase.name.plain, f.message⟩, error := some f } := by
  unfold Dispatcher.conclude
  dsimp only
  split
  -- The deadline comes before all else.
  · exact .inl ⟨_, rfl⟩
  · split
    · rename_i hf
      exact .inr ⟨hf, rfl⟩
    · exact .inl ⟨_, rfl⟩

/-- A failure while a resource is being configured is a fault or tried again. -/
theorem verdicts_configuring_error (h : r.phase.name = .text Phase.configuring.text)
    (hk : KeepsIdentity D → out.key = r.key) (f : Fault) :
    Verdicts D r (d.conclude r out (.error f) expired) := by
  rcases conclude_error d r out expired f with ⟨g, hg⟩ | ⟨-, hg⟩
  · rw [hg]
    exact .fault g
  · have hin : r.phase.isIn .succeeded = false := by
      rw [PhaseRecord.isIn, h]
      rfl
    rw [hg, hin, if_neg Bool.false_ne_true, h]
    exact .retried out f h hk

/-- A failure while a configured resource is checked is a fault, or the check is tried again. -/
theorem verdicts_succeeded_error (h : r.phase.name = .text Phase.succeeded.text) (f : Fault) :
    Verdicts D r (d.conclude r out (.error f) expired) := by
  rcases conclude_error d r out expired f with ⟨g, hg⟩ | ⟨-, hg⟩
  · rw [hg]
    exact .fault g
  · have hin : r.phase.isIn .succeeded = true := by
      rw [PhaseRecord.isIn, h]
      rfl
    rw [hg, hin, if_pos rfl]
    exact .postponed f h

/-- The reconciler for a resource is looked up in the table. -/
theorem exists_find?_of_reconcilerFor {rec : Reconciler (Shared δ) (Managed Spec Packages)}
    (h : d.reconcilerFor r = .ok rec) : ∃ name, d.table.find? name = some rec := by
  unfold Dispatcher.reconcilerFor at h
  split at h
  · split at h
    · rename_i name _ _ _ hfound
      cases h
      exact ⟨name, hfound⟩
    · cases h
  -- A name that is no text is refused one way or the other.
  · split at h <;> cases h

/-- A text that is in the table is looked up there. -/
theorem reconcilerFor_of_find? {σ : Type} {d : Dispatcher σ (Managed Spec Packages)} {p : String}
    {rec : Reconciler σ (Managed Spec Packages)} (hp : r.phase.name = .text p)
    (hfound : d.table.find? p = some rec) : d.reconcilerFor r = .ok rec := by
  unfold Dispatcher.reconcilerFor
  rw [hp]
  dsimp only
  rw [hfound]

/-- A name that is not in the table is refused, with a fault of its own if it cannot be looked up. -/
theorem reconcilerFor_of_unhandled {σ : Type} {d : Dispatcher σ (Managed Spec Packages)}
    (hn : ∀ p ∈ d.phases, r.phase.name ≠ .text p) :
    d.reconcilerFor r = .error (if r.phase.name.isScalar then
      .unhandledPhase r.key.text r.phase.name.plain else Fault.notAKey r.phase.name) := by
  unfold Dispatcher.reconcilerFor
  split
  · -- Every text can be looked up, but this one is not in the table.
    rename_i p hp
    rw [find?_eq_none_of_not_mem_keys fun hk => hn p hk hp, hp]
    rfl
  · split <;> rfl

/-- What the handler does in an invocation. -/
def handling {σ : Type} (rec : Reconciler σ (Managed Spec Packages)) (trace : Trace)
    (r : Managed Spec Packages) (s : σ) : Run σ (Managed Spec Packages × Except Fault Verdict) :=
  rec.handle (trace.enter (rec.label ++ " " ++ r.key.text)) r s

/-- The clock can count to every deadline of a managed kind. -/
theorem limitFault?_eq_none {σ R : Type} {d : Dispatcher σ R} {limit : Option Deadline}
    (h : d.limit = limit.map (·.number)) : d.limitFault? = none := by
  unfold Dispatcher.limitFault?
  rw [h]
  cases limit with
  | none => rfl
  | some l => simp [Option.isSome_iff_ne_none.mp l.hasDouble]

/-- A reconciler of the phase of a resource is invoked by running its handler under the deadline, if the
clock can count to that. -/
theorem invoke_run {σ : Type} {d : Dispatcher σ (Managed Spec Packages)}
    {rec : Reconciler σ (Managed Spec Packages)} (h : r.phase.name = .text rec.phase)
    (hlimit : d.limitFault? = none) (trace : Trace) (s : σ) :
    d.invoke trace rec r s =
      ((handling rec trace r s).within d.seconds?).bind fun x =>
        Activity.pure (d.conclude r x.1.1 x.1.2 x.2) := by
  unfold Dispatcher.invoke Reconciler.checkPhase
  rw [if_pos (by simp [h]), hlimit]
  rfl

/-- If it cannot, no handler is called. -/
theorem invoke_of_limitFault {σ : Type} {d : Dispatcher σ (Managed Spec Packages)}
    {rec : Reconciler σ (Managed Spec Packages)} (h : r.phase.name = .text rec.phase) {f : Fault}
    (hlimit : d.limitFault? = some f) (trace : Trace) (s : σ) :
    d.invoke trace rec r s = .finished s (.error f) := by
  unfold Dispatcher.invoke Reconciler.checkPhase
  rw [if_pos (by simp [h]), hlimit]
  rfl

/-- A reconciler is invoked on resources of its own phase only. -/
theorem name_of_checkPhase {rec : Reconciler (Shared δ) (Managed Spec Packages)}
    (h : rec.checkPhase r = .ok ()) : r.phase.name = .text rec.phase := by
  unfold Reconciler.checkPhase at h
  split at h
  · rename_i heq
    exact eq_of_beq heq
  · cases h

variable {K : ObjectKey}

/-- A dispatch keeps what the handler for the phase of the resource keeps, and comes out as the work
of that handler is concluded. -/
theorem keeps_dispatch_of_handler {V : Except Fault (Outcome (Managed Spec Packages)) → Prop}
    (hf : ∀ f, V (.error f))
    (h : ∀ name rec, d.table.find? name = some rec → r.phase.name = .text rec.phase → ∀ trace,
      (rec.handle trace r).Keeps (objectAt K) fun x => ∀ expired, V (d.conclude r x.1 x.2 expired))
    (trace : Trace) : (d.dispatch trace r).Keeps (objectAt K) V := by
  unfold Dispatcher.dispatch
  split
  · exact .pure (hf _)
  · rename_i rec hrec
    obtain ⟨name, hname⟩ := exists_find?_of_reconcilerFor hrec
    unfold Dispatcher.invoke
    split
    · exact .pure (hf _)
    · rename_i hphase
      have hr : r.phase.name = .text rec.phase := name_of_checkPhase hphase
      split
      · exact .pure (hf _)
      · -- The deadline takes nothing away: `h` is about what is concluded with and without it.
        refine Activity.Keeps.bind (Activity.Keeps.within (h name rec hname hr _) d.seconds?) ?_
        exact fun x hx => .pure (hx x.2)

end

/-! ### The handlers -/

section Handlers

variable {δ Spec Packages : Type} {K : ObjectKey} {D : Deployer δ}

/-- What keeps the objects of the cluster keeps the object under a key. -/
theorem keeps_onCluster {α : Type} {post : α → Prop} {p : Activity (Cluster δ) α}
    (h : p.Keeps (fun c => c.store.objects.find? K) post) :
    (Shared.onCluster p).Keeps (objectAt K) post :=
  Activity.Keeps.zoom (fun _ _ => rfl) h

/-- A call that keeps the objects of the cluster keeps the object under a key. -/
theorem keeps_callCluster {α : Type} {c : Call (Cluster δ) α}
    (h : c.Keeps fun c => c.store.objects) :
    (Shared.callCluster c).Keeps (objectAt K) fun _ => True :=
  keeps_onCluster (Activity.Keeps.step fun s => ⟨congrArg (·.find? K) (h s), trivial⟩)

/-- What is ensured keeps the object under a key, and the identity if the deployer does. -/
theorem keeps_ensure (h : Spares D K) (trace : Trace) (r : CatalogSourceConfig) :
    (Shared.onCluster (D.ensure trace r)).Keeps (objectAt K)
      fun x => KeepsIdentity D → x.1.ns = r.ns ∧ x.1.name = r.name := by
  refine keeps_onCluster ?_
  -- The second guarantee is there for some deployers only.
  by_cases hi : KeepsIdentity D
  · exact ((h.ensure trace r).and (hi.ensure trace r)).mono fun x hx _ => hx.2
  · exact (h.ensure trace r).mono fun x _ hx => absurd hx hi

/-- So does the filling in of packages. -/
theorem keeps_populate (h : Spares D K) (r : CatalogSourceConfig) :
    (Shared.populate D r).Keeps (objectAt K)
      fun x => KeepsIdentity D → x.1.ns = r.ns ∧ x.1.name = r.name := by
  refine keeps_onCluster (Activity.Keeps.step fun c => ⟨h.populate r c, fun hi => ?_⟩)
  obtain ⟨packages, hp⟩ := hi.populate r c
  rw [hp]
  exact ⟨rfl, rfl⟩

section

variable [ManagedKind Spec Packages] {r : Managed Spec Packages}
  {d : Dispatcher (Shared δ) (Managed Spec Packages)}

/-- A validation that blames nobody else and says what is wrong. -/
structure Diagnoses (problem? : Managed Spec Packages → Except Fault (Option String)) : Prop where
  fault : ∀ r f, problem? r = .error f → f.isStoreFailure = false
  message : ∀ r m, problem? r = .ok (some m) → m ≠ ""

/-- Validating a new resource leaves the object under any key as it is, and comes out with one of the
verdicts. -/
theorem keeps_initial {problem? : Managed Spec Packages → Except Fault (Option String)}
    (hp : Diagnoses problem?) (h : r.phase.name = .text Phase.initial.text) (trace : Trace) :
    ((Reconciler.initial problem?).handle trace r).Keeps (objectAt (δ := δ) K)
      (Concludes D d r) := by
  refine .pure fun expired => ?_
  cases hr : problem? r with
  | error f =>
    -- It is no store failure, which alone would be tried again.
    rcases conclude_error d r r expired f with ⟨g, hg⟩ | ⟨hf, -⟩
    · exact hg ▸ .fault g
    · rw [hp.fault r f hr] at hf
      cases hf
  | ok problem =>
    cases problem with
    | none => exact .scheduled h
    | some m => exact .rejected m h (hp.message r m hr)

/-- A resource that has failed is left as it is, and so is the object under any key. -/
theorem keeps_failed (h : r.phase.name = .text Phase.failed.text) (trace : Trace) :
    (Reconciler.failed.handle trace r).Keeps (objectAt (δ := δ) K)
      (Concludes D d r) :=
  .pure fun _ => .ended h

end

/-- The validation of operator sources blames nobody else and says what is wrong. -/
theorem diagnoses_source : Diagnoses fun r : OperatorSource => .ok r.problem? where
  fault _ _ h := by cases h
  message r m h := by
    unfold OperatorSource.problem? at h
    split at h
    · cases h
      simp [String.append_eq_empty_iff]
    · split at h <;> cases h
      decide

/-- A value without a list of packages is no failure of the store. -/
theorem isStoreFailure_of_idsOf? {v : Value} {f : Fault} (h : PackageList.idsOf? v = .error f) :
    f.isStoreFailure = false := by
  unfold PackageList.idsOf? at h
  split at h
  · cases h
  · cases h
    rfl
  · cases h
    rfl

/-- So does the validation of catalog source configs. -/
theorem diagnoses_catalog : Diagnoses CatalogSourceConfig.problem? where
  fault r f h := by
    unfold CatalogSourceConfig.problem? at h
    split at h
    · cases h
    · split at h
      · next hids =>
        cases h
        exact isStoreFailure_of_idsOf? hids
      · cases h
      · cases h
  message r m h := by
    unfold CatalogSourceConfig.problem? at h
    split at h
    · cases h
      decide
    · split at h <;> cases h
      decide

/-- Remembering packages touches no object. -/
theorem keeps_recordPackages (r : OperatorSource) :
    (Source.recordPackages r).Keeps (objectAt (δ := δ) K) fun _ => True :=
  Activity.Keeps.step fun _ => ⟨rfl, trivial⟩

/-- A failed attempt is tracked, a successful one is not. Neither touches an object. -/
theorem keeps_track (r : OperatorSource) (f : Fault) :
    (Source.track r f).Keeps (objectAt (δ := δ) K) fun _ => True :=
  Activity.Keeps.step fun _ => ⟨rfl, trivial⟩

/-- That a failure is no longer tracked changes no object. -/
theorem keeps_untrack (r : OperatorSource) :
    (Source.untrack r).Keeps (objectAt (δ := δ) K) fun _ => True :=
  Activity.Keeps.step fun _ => ⟨rfl, trivial⟩

/-- Remembering a copy touches no object. -/
theorem keeps_remember (r : CatalogSourceConfig) :
    Activity.Keeps (objectAt (δ := δ) K) (fun _ => True)
      (Shared.modify fun s => { s with lastKnownGood := s.lastKnownGood.insert r.key r }) :=
  Activity.Keeps.step fun _ => ⟨rfl, trivial⟩

/-- Configuring an operator source ends with the registry resources in place, with a failure to be
tried again, or with a fault. -/
theorem keeps_source_configure (hD : Spares D K) {r : OperatorSource}
    {d : Dispatcher (Shared δ) OperatorSource} (h : r.phase.name = .text Phase.configuring.text)
    (trace : Trace) :
    (Source.configure D trace r).Keeps (objectAt K)
      (Concludes D d r) := by
  refine .bind (keeps_recordPackages r) fun packages _ => ?_
  -- The deployer works on the derived catalog, so nothing it does to that gets into the source.
  refine .bind (keeps_ensure hD trace _) fun x _ => ?_
  obtain ⟨derived, ensured⟩ := x
  cases ensured with
  | error f =>
    dsimp only
    split
    -- A cancellation is passed on to the dispatcher, anything else is a verdict of the handler.
    · exact .pure fun _ => verdicts_configuring_error h (fun _ => rfl) f
    · exact .bind (keeps_track r f) fun _ _ => .pure fun _ => .retried r f h fun _ => rfl
  | ok _ =>
    refine .bind (keeps_populate hD derived) fun x _ => ?_
    obtain ⟨_, populated⟩ := x
    cases populated with
    | error f => exact .pure fun _ => verdicts_configuring_error h (fun _ => rfl) f
    | ok _ => exact .bind (keeps_untrack r) fun _ _ => .pure fun _ => .configured _ h fun _ => rfl

/-- Checking an operator source ends with the source as it is, with a fresh status, or with a
failure. -/
theorem keeps_source_check {r : OperatorSource} {d : Dispatcher (Shared δ) OperatorSource}
    (h : r.phase.name = .text Phase.succeeded.text) (trace : Trace) :
    (Source.check trace r).Keeps (objectAt (δ := δ) K)
      (Concludes D d r) := by
  refine .bind (keeps_callCluster (Cluster.keeps_workloadIsStale r.ns r.name)) fun x _ => ?_
  cases x with
  | error f => exact .pure fun _ => verdicts_succeeded_error h f
  | ok stale =>
    cases stale with
    | false => exact .pure fun _ => .converged h
    | true => exact .bind (keeps_recordPackages r) fun _ _ => .pure fun _ => .reset h

/-- Configuring a catalog source config ends as configuring an operator source does. The deployer
works on the resource itself here. -/
theorem keeps_catalog_configure (hD : Spares D K) {r : CatalogSourceConfig}
    {d : Dispatcher (Shared δ) CatalogSourceConfig}
    (h : r.phase.name = .text Phase.configuring.text) (trace : Trace) :
    (Catalog.configure D trace r).Keeps (objectAt K)
      (Concludes D d r) := by
  have key : ∀ {out : CatalogSourceConfig}, out.ns = r.ns ∧ out.name = r.name →
      out.key = r.key := by
    intro out ho
    unfold Managed.key
    rw [ho.1, ho.2]
  refine .bind (keeps_remember r) fun _ _ => ?_
  -- The outcome carries what the deployer returns, so its key is followed through both calls.
  refine .bind (keeps_ensure hD trace r) fun x hx => ?_
  obtain ⟨out, ensured⟩ := x
  cases ensured with
  | error f =>
    dsimp only
    split
    · exact .pure fun _ => verdicts_configuring_error h (fun hi => key (hx hi)) f
    · exact .pure fun _ => .retried out f h fun hi => key (hx hi)
  | ok _ =>
    refine .bind (keeps_populate hD out) fun y hy => ?_
    obtain ⟨filled, populated⟩ := y
    have kept : KeepsIdentity D → filled.key = r.key := fun hi =>
      key ⟨(hy hi).1.trans (hx hi).1, (hy hi).2.trans (hx hi).2⟩
    cases populated with
    | error f => exact .pure fun _ => verdicts_configuring_error h kept f
    | ok _ => exact .pure fun _ => .configured filled h kept

/-- Checking a catalog source config ends as checking an operator source does. -/
theorem keeps_catalog_check {r : CatalogSourceConfig}
    {d : Dispatcher (Shared δ) CatalogSourceConfig}
    (h : r.phase.name = .text Phase.succeeded.text) (trace : Trace) :
    (Catalog.check trace r).Keeps (objectAt (δ := δ) K)
      (Concludes D d r) := by
  have reads : Call.Keeps (fun c : Cluster δ => c.store.objects) (Catalog.needsReset r) := by
    refine .bind (Cluster.keeps_childMissing r) fun missing => ?_
    -- The deployment is looked at only if no child is missing.
    cases missing with
    | true => exact .pure true
    | false => exact Cluster.keeps_workloadIsStale r.ns r.name
  refine .bind (keeps_callCluster reads) fun x _ => ?_
  cases x with
  | error f => exact .pure fun _ => verdicts_succeeded_error h f
  | ok stale =>
    cases stale with
    | false => exact .pure fun _ => .converged h
    | true => exact .pure fun _ => .reset h

end Handlers

/-- The dispatch of a resource leaves the object under a key alone if the deployer does, and it
comes out as one of the verdicts for the phase of the resource. -/
theorem keeps_dispatch {δ Spec Packages : Type} [ManagedKind Spec Packages] {D : Deployer δ}
    {K : ObjectKey} (hD : Spares D K) {d : Dispatcher (Shared δ) (Managed Spec Packages)}
    (hd : Standard D d) (trace : Trace) (r : Managed Spec Packages) :
    (d.dispatch trace r).Keeps (objectAt K) (Verdicts D r) := by
  refine keeps_dispatch_of_handler .fault (fun name rec hrec hphase trace => ?_) trace
  -- One case for each reconciler of each kind, the reconciler of the phase being one of them.
  cases hd with
  | source limit =>
    rcases source_reconciler_cases hrec with rfl | rfl | rfl | rfl
    · exact keeps_initial diagnoses_source hphase trace
    · exact keeps_source_configure hD hphase trace
    · exact keeps_source_check hphase trace
    · exact keeps_failed hphase trace
  | catalog limit =>
    rcases catalog_reconciler_cases hrec with rfl | rfl | rfl | rfl
    · exact keeps_initial diagnoses_catalog hphase trace
    · exact keeps_catalog_configure hD hphase trace
    · exact keeps_catalog_check hphase trace
    · exact keeps_failed hphase trace

end CatalogOperator.Proofs.Reconcile
