import CatalogOperator.Proofs.Operator.History

/-!
# `CatalogOperator.Proofs.Operator.Start`: an operator that has been started

Starting an operator attaches it to the store, which announces every object that is already there.
Its queues are empty, and its workers hold nothing.

* `Opened`: what becomes of a controller as it is started.
* `start_cases`: what becomes of the operator.
* `wired_of_start`, `announced_of_start`, `standing_of_start`, `faithful_of_start`: what follows.
-/

set_option autoImplicit false

namespace CatalogOperator.Proofs.Operation

open Queue Reconcile

section

variable {δ : Type}

/-! ### Starting the controllers -/

/-- Whether a controller is another one that may have been started: no worker of it holds a key
unless one did before. -/
structure Opened (c c' : Controller δ) : Prop where
  kind : c'.kind = c.kind
  reconcile : c'.reconcile = c.reconcile
  ns : c'.ns = c.ns
  queue : c'.queue = c.queue
  workers : ∀ w ∈ c'.workers, w ∈ c.workers ∨ w = .idle

/-- A controller need not be started. -/
theorem Opened.refl (c : Controller δ) : Opened c c :=
  ⟨rfl, rfl, rfl, rfl, fun _ => .inl⟩

/-- A controller may be started more than once. -/
theorem Opened.trans {c c' c'' : Controller δ} (h : Opened c c') (h' : Opened c' c'') :
    Opened c c'' where
  kind := h'.kind.trans h.kind
  reconcile := h'.reconcile.trans h.reconcile
  ns := h'.ns.trans h.ns
  queue := h'.queue.trans h.queue
  workers w hw := (h'.workers w hw).elim (h.workers w) .inr

/-- Starting a controller gives no worker a key. -/
theorem opened_start (c : Controller δ) (now : Rat) : Opened c (c.start now).1 := by
  unfold Controller.start
  split
  · exact .refl c
  · exact ⟨rfl, rfl, rfl, rfl, fun w hw => .inr (List.eq_of_mem_replicate hw)⟩

/-- Whether an operator is another one with controllers that may have been started. -/
def Opens (o o' : Operator δ) : Prop :=
  ∃ cs, o' = { o with controllers := cs } ∧ cs.map (·.kind) = o.controllers.map (·.kind) ∧
    ∀ c' ∈ cs, ∃ c ∈ o.controllers, Opened c c'

/-- Controllers may be started one after another. -/
theorem sequential_opens : Sequential (Opens : Operator δ → Operator δ → Prop) where
  refl o := ⟨o.controllers, rfl, rfl, fun c hc => ⟨c, hc, .refl c⟩⟩
  trans := by
    rintro o o' o'' ⟨cs, rfl, hkinds, h⟩ ⟨cs', rfl, hkinds', h'⟩
    refine ⟨cs', rfl, hkinds'.trans hkinds, fun c'' hc'' => ?_⟩
    obtain ⟨c', hc', ho'⟩ := h' c'' hc''
    obtain ⟨c, hc, ho⟩ := h c' hc'
    exact ⟨c, hc, ho.trans ho'⟩

/-- Starting one controller starts no worker with a key. -/
theorem opens_startController (i : Nat) :
    (Operator.startController i : Call (Operator δ) Unit).Obeys Opens := by
  intro o
  have hrun : (Operator.startController i).runOn o =
      (Operator.onController i fun c => c.start o.now).runOn o := by
    unfold Operator.startController Call.runOn
    rfl
  rw [hrun]
  cases hc : o.controllers[i]? with
  | none =>
    have hnone : ((Operator.onController i fun c => c.start o.now).runOn o).1 = o := by
      unfold Call.runOn Operator.onController Call.ofFunction
      dsimp only
      rw [hc]
    rw [hnone]
    exact sequential_opens.refl o
  | some c =>
    rw [runOn_onController hc]
    refine ⟨_, rfl, map_set_eq (·.kind) hc (opened_start c o.now).kind, fun c' hc' => ?_⟩
    rcases List.mem_or_eq_of_mem_set hc' with hc' | rfl
    · exact ⟨c', hc', .refl c'⟩
    · exact ⟨c, List.mem_of_getElem? hc, opened_start c o.now⟩

/-- Nor does starting several. -/
theorem opens_startControllers (is : List Nat) :
    (Operator.startControllers is : Call (Operator δ) Unit).Obeys Opens := by
  induction is with
  | nil => exact .pure sequential_opens ()
  | cons i rest ih => exact .bind sequential_opens (opens_startController i) fun _ => ih

/-! ### Starting the operator -/

/-- Taking the proxy values over only looks. -/
theorem beside_refreshIfAvailable :
    (Operator.refreshIfAvailable : Call (Operator δ) Unit).Obeys Beside := by
  refine .bind sequential_beside (fun o => sequential_beside.refl o) fun o => ?_
  split
  · refine .bind sequential_beside ?_ fun _ => .pure sequential_beside ()
    exact Call.Obeys.zoom (R := Aside) (fun o _ h => beside_cluster o h) Cluster.looks_refreshProxy
  · exact .pure sequential_beside ()

/-- An operator that has been started is attached to the store that it was given, and its controllers
are open. -/
theorem start_cases {o o' : Operator δ} (h : Operator.start.runOn o = (o', .ok ())) :
    ∃ cluster, Aside o.shared.cluster cluster ∧ o'.shared.cluster = cluster.attach.1 ∧
      Sheds o.shared o'.shared ∧ o'.ns = o.ns ∧ o'.controllers.map (·.kind) = o.controllers.map (·.kind) ∧
      ∀ c' ∈ o'.controllers, ∃ c ∈ o.controllers, Opened c c' := by
  unfold Operator.start at h
  have hbeside := beside_refreshIfAvailable o
  rw [Call.runOn_bind] at h
  cases hrefresh : Operator.refreshIfAvailable.runOn o with
  | mk o₁ r =>
    rw [hrefresh] at h hbeside
    cases r with
    | error f => cases h
    | ok _ =>
      -- What is left of the start attaches the operator to the store and starts the controllers.
      obtain ⟨shared, rfl, haside, hsheds⟩ := hbeside
      have h' : (Operator.startControllers (List.range o.controllers.length)).runOn
          { (o.setShared shared).attach with
            routers := o.routers + 1
            routing := true } = (o', .ok ()) := h
      have hopens := opens_startControllers (List.range o.controllers.length)
        { (o.setShared shared).attach with
          routers := o.routers + 1
          routing := true }
      rw [h'] at hopens
      obtain ⟨cs, rfl, hkinds, hopened⟩ := hopens
      exact ⟨shared.cluster, haside, rfl,
        ⟨hsheds.lastKnownGood, hsheds.packages, hsheds.tracker⟩, rfl, hkinds, hopened⟩

variable {cluster : Cluster δ} {D : Deployer δ} {config : OperatorConfig} {o : Operator δ}

/-- A controller of a new operator has an empty queue and no workers. -/
theorem new_of_mem_init {c : Controller δ} (hc : c ∈ (Operator.init cluster D config).controllers) :
    c.workers = [] ∧ c.queue = { baseDelay := c.queue.baseDelay, maxDelay := c.queue.maxDelay } := by
  simp only [Operator.init, List.mem_cons, List.not_mem_nil, or_false] at hc
  rcases hc with rfl | rfl <;> exact ⟨rfl, rfl⟩

/-- The controllers of an operator that has been started are those of the two managed kinds. -/
theorem opened_of_start
    (hstart : Operator.start.runOn (Operator.init cluster D config) = (o, .ok ())) {c : Controller δ}
    (hc : c ∈ o.controllers) :
    Opened (.catalogs D (some (.text config.ns)) config.catalogs) c ∨
      Opened (.sources D Controller.forgetSource (some (.text config.ns)) config.sources
        config.sources.deadline) c := by
  obtain ⟨-, -, -, -, -, -, hopened⟩ := start_cases hstart
  obtain ⟨c₀, hc₀, ho⟩ := hopened c hc
  simp only [Operator.init, List.mem_cons, List.not_mem_nil, or_false] at hc₀
  rcases hc₀ with rfl | rfl
  · exact .inl ho
  · exact .inr ho

/-- None of its workers is in a reconcile. -/
theorem not_busy_of_start
    (hstart : Operator.start.runOn (Operator.init cluster D config) = (o, .ok ())) {c : Controller δ}
    (hc : c ∈ o.controllers) {k : ObjectKey} {t : Rat}
    {resume : Wake → Shared δ → Run (Shared δ) (Except Fault Bool)} :
    .busy k t resume ∉ c.workers := by
  intro hmem
  rcases opened_of_start hstart hc with ho | ho
  · rcases ho.workers _ hmem with hmem | he
    · cases hmem
    · cases he
  · rcases ho.workers _ hmem with hmem | he
    · cases hmem
    · cases he

/-- Nothing is known of any key once an operator is started. -/
theorem standing_of_start
    (hstart : Operator.start.runOn (Operator.init cluster D config) = (o, .ok ())) {c : Controller δ}
    (hc : c ∈ o.controllers) (k : ObjectKey) :
    standing c.queue k = { dirty := false, processing := false, timers := [], failures := 0 } := by
  rcases opened_of_start hstart hc with ho | ho <;> rw [ho.queue] <;> rfl

/-- The controllers of an operator that has been started are those of the managed kinds. -/
theorem served_of_start
    (hstart : Operator.start.runOn (Operator.init cluster D config) = (o, .ok ())) : Served o := by
  obtain ⟨-, -, -, -, -, hkinds, -⟩ := start_cases hstart
  exact hkinds

/-- Their queues are open and empty, and their workers hold nothing. -/
theorem staffed_of_start
    (hstart : Operator.start.runOn (Operator.init cluster D config) = (o, .ok ())) :
    ∀ c ∈ o.controllers, Staffed c := by
  obtain ⟨-, -, -, -, -, -, hopened⟩ := start_cases hstart
  intro c hc
  obtain ⟨c₀, hc₀, ho⟩ := hopened c hc
  obtain ⟨hworkers, hqueue⟩ := new_of_mem_init hc₀
  refine ⟨by rw [ho.queue, hqueue], ⟨[], [], ?_, fun j k => ?_⟩, fun k _ => ?_⟩
  · rw [ho.queue, hqueue]
    exact orderly_fresh _ _
  · -- A worker that has just been started holds nothing.
    have hnone : heldBy c.workers j = none := by
      unfold heldBy
      cases hw : c.workers[j]? with
      | none => rfl
      | some w =>
        rcases ho.workers w (List.mem_of_getElem? hw) with hmem | rfl
        · rw [hworkers] at hmem
          cases hmem
        · rfl
    simp [hnone]
  · rw [standing_of_start hstart hc]
    exact ⟨rfl, rfl, rfl⟩

/-- Starting an operator leaves the objects of the store as they are. -/
theorem filed_of_start
    (hstart : Operator.start.runOn (Operator.init cluster D config) = (o, .ok ()))
    (hfiled : cluster.store.Filed) : o.shared.cluster.store.Filed := by
  obtain ⟨cluster', haside, hcluster, -, -, -, -⟩ := start_cases hstart
  have hobjects : cluster'.store.objects = cluster.store.objects := haside.objects
  intro k m hm
  rw [hcluster, attach_eq] at hm
  have hm' : cluster.store.objects.find? k = some m := hobjects ▸ hm
  exact hfiled k m hm'

/-- An operator that is started over a store that nobody watches is at work in its namespace. -/
theorem wired_of_start
    (hstart : Operator.start.runOn (Operator.init cluster D config) = (o, .ok ()))
    (hfiled : cluster.store.Filed) (hsub : cluster.store.subscriptions = [])
    (hfeed : cluster.feed = {}) : Wired config.ns o := by
  obtain ⟨cluster', haside, hcluster, -, hns, -, -⟩ := start_cases hstart
  have hsub' : cluster'.store.subscriptions = [] := haside.subscriptions.trans hsub
  have hfeed' : cluster'.feed = {} := haside.feed.trans hfeed
  rw [attach_eq] at hcluster
  -- The watcher that the operator attaches is the only one.
  refine ⟨hns, served_of_start hstart, staffed_of_start hstart, ⟨cluster'.watchers, ?_⟩,
    filed_of_start hstart hfiled, ?_⟩
  · rw [hcluster]
    show cluster'.store.subscriptions ++ _ = _
    rw [hsub', List.nil_append]
  · show o.shared.cluster.feed.pending = o.shared.cluster.feed.events.length
    rw [hcluster, hfeed']
    simp

/-- The objects that are there when an operator is started are announced. -/
theorem announced_of_start
    (hstart : Operator.start.runOn (Operator.init cluster D config) = (o, .ok ()))
    (hw : Wired config.ns o) {k : ObjectKey} {m : Manifest} (hm : objectAt k o.shared = some m) :
    Announced k o := by
  obtain ⟨cluster', -, hcluster, -, -, -, -⟩ := start_cases hstart
  refine ⟨arrival m, ?_, hw.filed k m hm⟩
  rw [attach_eq] at hcluster
  show arrival m ∈ o.shared.cluster.feed.events
  unfold objectAt at hm
  rw [hcluster] at hm ⊢
  obtain ⟨e, he, rfl⟩ := Option.map_eq_some_iff.mp hm
  exact List.mem_append_right _ (List.mem_map.mpr ⟨e, List.mem_of_find?_eq_some he, rfl⟩)

/-- What the controllers do works through the store if the deployer does. -/
theorem faithful_of_start
    (hstart : Operator.start.runOn (Operator.init cluster D config) = (o, .ok ()))
    (hD : WorksThroughStore D) : Faithful o := by
  refine ⟨fun c hc k => ?_, fun c hc k t resume hmem => absurd hmem (not_busy_of_start hstart hc)⟩
  rcases opened_of_start hstart hc with ho | ho
  · rw [ho.reconcile]
    exact recorded_reconcile hD (.catalog _) recorded_forgetCopy k
  · rw [ho.reconcile]
    exact recorded_reconcile hD (.source _) recorded_forgetSource k

end

end CatalogOperator.Proofs.Operation
