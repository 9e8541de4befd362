import CatalogOperator.Operator.Basic
import CatalogOperator.Proofs.Manifest.Same
import CatalogOperator.Proofs.Operator.Turns
import CatalogOperator.Proofs.Store.Changes

/-!
# `CatalogOperator.Proofs.Operator.Routing`: what becomes of an event

Handling an event has two parts. Finding its keys only looks at what is shared, and handing them over
only adds keys to queues. An event on a managed resource of the namespace that is watched yields the
key of the resource, and nothing can keep that key from its queue.

* `Beside`: what finding keys may do. `beside_route` says that it does no more.
* `AllTurns`: what happens at the controllers. `asks_deliver` says that handing keys over asks for
  these keys and no others.
* `Managed`: the keys of the managed resources of a namespace. `runOn_route_own` and
  `dirty_handle_own` say what their events do.
-/

set_option autoImplicit false

namespace CatalogOperator.Proofs.Operation

open Queue

section

variable {δ : Type}

/-! ### Finding the keys of an event -/

/-- Whether a shared state differs from another one only in the cluster, and in that some failures
are no longer tracked. -/
structure Sheds (s s' : Shared δ) : Prop where
  lastKnownGood : s'.lastKnownGood = s.lastKnownGood
  packages : s'.packages = s.packages
  tracker : ∀ name, s.tracker.find? name = none → s'.tracker.find? name = none

/-- A state that stays as it is sheds nothing. -/
theorem Sheds.refl (s : Shared δ) : Sheds s s :=
  ⟨rfl, rfl, fun _ => id⟩

/-- Whether an operator differs from another one only in what is shared: in nothing that watchers are
told of, and in that some failures are no longer tracked. -/
def Beside (o o' : Operator δ) : Prop :=
  ∃ shared, o' = o.setShared shared ∧ Aside o.shared.cluster shared.cluster ∧
    Sheds o.shared shared

/-- One such difference after another is one. -/
theorem sequential_beside : Sequential (Beside : Operator δ → Operator δ → Prop) where
  refl o := ⟨o.shared, rfl, .refl _, .refl _⟩
  trans := by
    rintro o o' o'' ⟨s, rfl, ha, hs⟩ ⟨s', rfl, ha', hs'⟩
    exact ⟨s', rfl, ha.trans ha', hs'.lastKnownGood.trans hs.lastKnownGood,
      hs'.packages.trans hs.packages, fun name hname => hs'.tracker name (hs.tracker name hname)⟩

/-- A look at the cluster. -/
theorem beside_cluster (o : Operator δ) {cluster : Cluster δ} (h : Aside o.shared.cluster cluster) :
    Beside o (o.setShared { o.shared with cluster }) :=
  ⟨_, rfl, h, rfl, rfl, fun _ => id⟩

/-- A failed store call is passed over, and no other failure is. -/
theorem runOn_orOnStoreFailure {σ α : Type} (c : Call σ α) (other : α) (s : σ) :
    (Mapper.orOnStoreFailure c other).runOn s =
      ((c.runOn s).1, match (c.runOn s).2 with
        | .error f => if f.isStoreFailure then .ok other else .error f
        | .ok a => .ok a) := by
  unfold Call.runOn Mapper.orOnStoreFailure
  cases c s with
  | mk r s' =>
    cases r with
    | ok a => rfl
    | error f => cases hf : f.isStoreFailure <;> simp [hf]

/-- What a call does is done whether or not its failure is passed over. -/
theorem state_orOnStoreFailure {σ α : Type} (c : Call σ α) (other : α) (s : σ) :
    ((Mapper.orOnStoreFailure c other).runOn s).1 = (c.runOn s).1 := by
  rw [runOn_orOnStoreFailure]

/-- Finding the managed resources only looks at the cluster. -/
theorem looks_ownersOf (ns : Option Value) (kinds : List String) :
    (Mapper.ownersOf ns kinds : Call (Cluster δ) (List ObjectKey)).Looks := by
  induction kinds with
  | nil => exact .pure _
  | cons kind rest ih =>
    refine .bind (Cluster.looks_list _) fun ms => ?_
    refine .bind (fun c => Aside.refl c) fun keys => ?_
    exact .bind ih fun more => .pure _

/-- Collecting the keys of several mappers does what these do. -/
theorem obeys_collect {σ : Type} {R : σ → σ → Prop} (hR : Sequential R) (e : WatchEvent)
    {ms : List (Mapper σ)} (h : ∀ m ∈ ms, (m.map e).Obeys R) (found : List ObjectKey) :
    (Router.collect e found ms).Obeys R := by
  induction ms generalizing found with
  | nil => exact .pure hR _
  | cons m rest ih =>
    have hrest := ih fun m' hm' => h m' (List.mem_cons_of_mem m hm')
    unfold Router.collect
    split
    · exact .bind hR (h m List.mem_cons_self) fun keys => hrest _
    · exact hrest found

/-- Finding the keys of an event only looks. -/
theorem beside_route (ns : Option Value) (e : WatchEvent) :
    ((Operator.router ns).route e : Call (Operator δ) _).Obeys Beside := by
  refine obeys_collect sequential_beside e (fun m hm => ?_) []
  have lift : ∀ (o : Operator δ) (s : Shared δ), Aside o.shared.cluster s.cluster ∧
      Sheds o.shared s → Beside o (o.setShared s) := fun o s h => ⟨s, rfl, h⟩
  simp only [Operator.router, List.mem_cons, List.not_mem_nil, or_false] at hm
  rcases hm with rfl | rfl | rfl | rfl | rfl
  · exact fun o => sequential_beside.refl o
  · exact fun o => sequential_beside.refl o
  · exact fun o => sequential_beside.refl o
  · refine Call.Obeys.zoom (R := fun s s' => Aside s.cluster s'.cluster ∧ Sheds s s') lift fun s => ?_
    have hlooks : (Mapper.refreshAndList [Kind.operatorSource, Kind.catalogSourceConfig] ns :
        Call (Cluster δ) _).Looks :=
      .bind Cluster.looks_refreshProxy fun _ => looks_ownersOf ns _
    have hs := hlooks s.cluster
    rw [← state_orOnStoreFailure _ []] at hs
    exact ⟨hs, rfl, rfl, fun _ => id⟩
  · -- The tracked errors are aside from all that is watched, and the hub only drops some.
    refine Call.Obeys.zoom (R := fun s s' => Aside s.cluster s'.cluster ∧ Sheds s s') lift fun s => ?_
    exact ⟨.refl s.cluster, rfl, rfl, fun _ h => Table.find?_filter_of_absent h _⟩

/-! ### What happens at all controllers -/

/-- The keys of a kind. -/
def ofKind (kind : String) : ObjectKey → Bool :=
  fun k => k.kind = .text kind

/-- Whether each controller is another one after turns that are about the happenings with keys of
its kind. -/
structure AllTurns (now : Rat) (h : List Happening) (cs cs' : List (Controller δ)) : Prop where
  length : cs'.length = cs.length
  turns : ∀ (i : Nat) (c : Controller δ), cs[i]? = some c →
    ∃ c', cs'[i]? = some c' ∧ Turns now c (about (ofKind c.kind) h) c'

variable {now : Rat} {h h' : List Happening} {cs cs' cs'' : List (Controller δ)}

/-- Controllers that stay as they are take no turn. -/
theorem AllTurns.refl (now : Rat) (cs : List (Controller δ)) : AllTurns now [] cs cs where
  length := rfl
  turns _ c hc := ⟨c, hc, .refl c⟩

/-- Turns of all controllers go on with further turns. -/
theorem AllTurns.trans (ht : AllTurns now h cs cs') (ht' : AllTurns now h' cs' cs'') :
    AllTurns now (h ++ h') cs cs'' where
  length := ht'.length.trans ht.length
  turns i c hc := by
    obtain ⟨c', hc', hturns⟩ := ht.turns i c hc
    obtain ⟨c'', hc'', hturns'⟩ := ht'.turns i c' hc'
    rw [hturns.sameOffice.kind] at hturns'
    exact ⟨c'', hc'', about_append ▸ hturns.trans hturns'⟩

/-- Every controller is one that was there before and has taken its turns. -/
theorem AllTurns.exists_turns (ht : AllTurns now h cs cs') {c' : Controller δ} (hc' : c' ∈ cs') :
    ∃ c ∈ cs, Turns now c (about (ofKind c.kind) h) c' := by
  obtain ⟨i, hi⟩ := List.getElem?_of_mem hc'
  have hlt : i < cs.length := ht.length ▸ (List.getElem?_eq_some_iff.mp hi).1
  obtain ⟨c'', hc'', hturns⟩ := ht.turns i _ (List.getElem?_eq_getElem hlt)
  rw [hi] at hc''
  cases hc''
  exact ⟨_, List.getElem_mem hlt, hturns⟩

/-- The kinds of the controllers stay, one by one. -/
theorem AllTurns.map_kind (ht : AllTurns now h cs cs') : cs'.map (·.kind) = cs.map (·.kind) := by
  refine List.ext_getElem? fun i => ?_
  rw [List.getElem?_map, List.getElem?_map]
  cases hc : cs[i]? with
  | none =>
    have hnone : cs'[i]? = none := by
      rw [List.getElem?_eq_none_iff] at hc ⊢
      exact ht.length ▸ hc
    rw [hnone]
  | some c =>
    obtain ⟨c', hc', hturns⟩ := ht.turns i c hc
    rw [hc', Option.map_some, Option.map_some, hturns.sameOffice.kind]

/-- A key that is asked for need not get to any queue. -/
theorem turns_missed (now : Rat) (c : Controller δ) (p : ObjectKey → Bool) (k : ObjectKey) :
    Turns now c (about p [.asked k]) c := by
  unfold about
  rw [List.filter_cons]
  split
  · exact (Turn.missed k).turns
  · exact .refl c

/-- A key that no controller takes is asked for all the same. -/
theorem AllTurns.missed (now : Rat) (cs : List (Controller δ)) (ks : List ObjectKey) :
    AllTurns now (ks.map .asked) cs cs := by
  induction ks with
  | nil => exact .refl now cs
  | cons k rest ih =>
    have hone : AllTurns now [.asked k] cs cs :=
      ⟨rfl, fun _ c hc => ⟨c, hc, turns_missed now c _ k⟩⟩
    exact hone.trans ih

/-- One controller takes a turn that is about what is asked for, and the others miss it. -/
theorem AllTurns.set_asked {i : Nat} {c c' : Controller δ} {k : ObjectKey} (hc : cs[i]? = some c)
    (ht : Turns now c (about (ofKind c.kind) [.asked k]) c') :
    AllTurns now [.asked k] cs (cs.set i c') where
  length := List.length_set
  turns j d hd := by
    rw [List.getElem?_set]
    split
    · next e =>
      subst e
      rw [hc] at hd
      cases hd
      exact ⟨c', by rw [if_pos (List.getElem?_eq_some_iff.mp hc).1], ht⟩
    · exact ⟨d, hd, turns_missed now d _ k⟩

/-! ### Handing keys over -/

/-- An item in the place of one that agrees with it does not show where they agree. -/
theorem map_set_eq {α β : Type} (f : α → β) {l : List α} {i : Nat} {a b : α} (ha : l[i]? = some a)
    (hf : f b = f a) : (l.set i b).map f = l.map f := by
  refine List.ext_getElem? fun j => ?_
  rw [List.getElem?_map, List.getElem?_map, List.getElem?_set]
  split
  · next e =>
    rw [if_pos (List.getElem?_eq_some_iff.mp ha).1, ← e, ha, Option.map_some, Option.map_some, hf]
  · rfl

/-- A change of a controller that is there. -/
theorem modifyController_eq {o : Operator δ} {i : Nat} {c : Controller δ}
    (hc : o.controllers[i]? = some c) (f : Controller δ → Controller δ) :
    o.modifyController i f = { o with controllers := o.controllers.set i (f c) } := by
  unfold Operator.modifyController
  rw [List.modify_eq_set_getElem?, hc]
  rfl

/-- Whether an operator is another one after its controllers have been asked for keys, which does not
concern the workers. -/
def Asks (ks : List ObjectKey) (o o' : Operator δ) : Prop :=
  ∃ cs, o' = { o with controllers := cs } ∧ AllTurns o.now (ks.map .asked) o.controllers cs ∧
    cs.map (·.workers) = o.controllers.map (·.workers)

/-- An operator may miss all the keys it is asked for. -/
theorem Asks.missed (ks : List ObjectKey) (o : Operator δ) : Asks ks o o :=
  ⟨o.controllers, rfl, .missed o.now o.controllers ks, rfl⟩

/-- Asking for some keys and then for others is asking for all of them. -/
theorem Asks.trans {ks ks' : List ObjectKey} {o o' o'' : Operator δ} (ha : Asks ks o o')
    (ha' : Asks ks' o' o'') : Asks (ks ++ ks') o o'' := by
  obtain ⟨cs, rfl, ht, hw⟩ := ha
  obtain ⟨cs', rfl, ht', hw'⟩ := ha'
  refine ⟨cs', rfl, ?_, hw'.trans hw⟩
  rw [List.map_append]
  exact ht.trans ht'

/-- A controller that is asked for a key adds it or fails. -/
theorem enqueue_cases (c : Controller δ) (k : ObjectKey) :
    (c.enqueue k).1 = c ∨
      k.kind = .text c.kind ∧ (c.enqueue k).1 = { c with queue := c.queue.add k } := by
  unfold Controller.enqueue
  split
  · next hk =>
    split
    · exact .inl rfl
    · split
      · exact .inl rfl
      · exact .inr ⟨by simpa using hk, rfl⟩
  · exact .inl rfl

/-- An operation on a controller that is there changes this controller. -/
theorem runOn_onController {α : Type} {o : Operator δ} {i : Nat} {c : Controller δ}
    (hc : o.controllers[i]? = some c) (f : Controller δ → Controller δ × Except Fault α) :
    (Operator.onController i f).runOn o =
      ({ o with controllers := o.controllers.set i (f c).1 }, (f c).2) := by
  unfold Call.runOn Operator.onController Call.ofFunction
  dsimp only
  rw [hc]
  dsimp only
  rw [modifyController_eq hc]

/-- A sink hands the key to the controller of its kind. -/
theorem runOn_sink {o : Operator δ} {kind : String} {i : Nat} {c : Controller δ}
    (hi : o.controllerOf? kind = some i) (hc : o.controllers[i]? = some c) (k : ObjectKey) :
    (Operator.sink kind k).runOn o =
      ({ o with controllers := o.controllers.set i (c.enqueue k).1 }, (c.enqueue k).2) := by
  rw [← runOn_onController hc fun c => c.enqueue k]
  unfold Operator.sink Call.runOn
  dsimp only
  rw [hi]

/-- A controller is found by its kind. -/
theorem exists_of_controllerOf? {o : Operator δ} {kind : String} {i : Nat}
    (h : o.controllerOf? kind = some i) : ∃ c, o.controllers[i]? = some c ∧ c.kind = kind := by
  obtain ⟨hi, hkind, -⟩ := List.findIdx?_eq_some_iff_getElem.mp h
  exact ⟨_, List.getElem?_eq_getElem hi, by simpa using hkind⟩

/-- A sink asks for the key it is handed. -/
theorem asks_sink (kind : String) (k : ObjectKey) (o : Operator δ) :
    Asks [k] o ((Operator.sink kind k).runOn o).1 := by
  cases hi : o.controllerOf? kind with
  | none =>
    have hnone : ((Operator.sink kind k).runOn o).1 = o := by
      unfold Operator.sink Call.runOn
      dsimp only
      rw [hi]
    rw [hnone]
    exact .missed [k] o
  | some i =>
    obtain ⟨c, hc, -⟩ := exists_of_controllerOf? hi
    rw [runOn_sink hi hc]
    rcases enqueue_cases c k with he | ⟨hk, he⟩
    · rw [he]
      exact ⟨_, rfl, .set_asked hc (turns_missed o.now c _ k), map_set_eq (·.workers) hc rfl⟩
    · rw [he]
      refine ⟨_, rfl, .set_asked hc ?_, map_set_eq (·.workers) hc (by rfl)⟩
      -- The key is of the kind of the controller, so the turn is about it.
      have hours : about (ofKind c.kind) [.asked k] = [.asked k] := by
        simp [about, Happening.queued?, ofKind, hk]
      rw [hours]
      exact (Turn.asked k hk).turns

/-- Every sink of the router adds to the queue of a controller. -/
theorem exists_sink {ns : Option Value} {v : Value} {f : ObjectKey → Call (Operator δ) Unit}
    (h : (Operator.router ns : Router (Operator δ)).sinks.find? v = some f) :
    ∃ kind, f = Operator.sink kind := by
  simp only [Operator.router, List.map_cons, List.map_nil, Table.ofList, List.foldl_cons,
    List.foldl_nil, Table.find?_insert, Table.find?_empty] at h
  split at h
  · exact ⟨_, (Option.some.inj h).symm⟩
  · split at h
    · exact ⟨_, (Option.some.inj h).symm⟩
    · cases h

/-- Handing keys over asks for these keys and no others. -/
theorem asks_deliver (ns : Option Value) (ks : List ObjectKey) (o : Operator δ) :
    Asks ks o (((Operator.router ns).deliver ks).runOn o).1 := by
  induction ks generalizing o with
  | nil => exact .missed [] o
  | cons k rest ih =>
    unfold Router.deliver
    split
    · exact .missed (k :: rest) o
    · split
      · exact (Asks.missed [k] o).trans (ih o)
      · next f hf =>
        obtain ⟨kind, rfl⟩ := exists_sink hf
        have hsink := asks_sink kind k o
        rw [Call.runOn_bind]
        cases hrun : (Operator.sink kind k).runOn o with
        | mk o' r =>
          rw [hrun] at hsink
          cases r with
          | ok _ => exact hsink.trans (ih o')
          | error f => exact hsink.trans (.missed rest o')

/-! ### Handling an event -/

/-- The keys of an event, none if finding them fails. -/
def routed (ns : Option Value) (e : WatchEvent) (o : Operator δ) : List ObjectKey :=
  (((Operator.router ns).route e).runOn o).2.toOption.getD []

/-- An event is handled by finding its keys and asking for them. -/
theorem handle_cases (ns : Option Value) (e : WatchEvent) (o : Operator δ) :
    ∃ o', Beside o o' ∧ Asks (routed ns e o) o' ((Operator.router ns).handle e o) := by
  have hbeside := beside_route ns e o
  unfold Router.handle Router.routeAndDeliver routed
  rw [Call.runOn_bind]
  cases hrun : Call.runOn ((Operator.router ns).route e) o with
  | mk o' r =>
    rw [hrun] at hbeside
    cases r with
    | ok ks => exact ⟨o', hbeside, asks_deliver ns ks o'⟩
    | error f => exact ⟨o', hbeside, .missed [] o'⟩

/-! ### Events on managed resources -/

/-- Whether a key is that of a managed resource of a namespace. -/
structure Managed (ns : String) (k : ObjectKey) : Prop where
  ns : k.ns = .text ns
  kind : k.kind = .text Kind.operatorSource ∨ k.kind = .text Kind.catalogSourceConfig

/-- The kind and the namespace of an object are those of its identity. -/
theorem kind?_of_identity? {m : Manifest} {k : ObjectKey} (h : m.identity? = some k) :
    m.kind? = some k.kind ∧ m.ns? = some k.ns := by
  unfold Manifest.ns?
  rw [h]
  cases m with
  | part => cases h
  | _ =>
    cases h
    exact ⟨rfl, rfl⟩

/-- A mapper that does not accept an event is passed over. -/
theorem collect_cons_of_not_accepts {σ : Type} {e : WatchEvent} {m : Mapper σ}
    (h : m.accepts e = false) (found : List ObjectKey) (ms : List (Mapper σ)) :
    Router.collect e found (m :: ms) = Router.collect e found ms := by
  have hm : ¬ m.accepts e = true := by simp [h]
  rw [Router.collect, if_neg hm]

/-- If one mapper alone accepts an event, the key it finds is all that is found. -/
theorem runOn_collect_of_accepts {σ : Type} {e : WatchEvent} {m : Mapper σ} {ms : List (Mapper σ)}
    {k : ObjectKey} {s : σ} (hm : m.accepts e = true) (hmap : (m.map e).runOn s = (s, .ok [k]))
    (h : ∀ m ∈ ms, m.accepts e = false) : (Router.collect e [] (m :: ms)).runOn s = (s, .ok [k]) := by
  have hrest : ∀ found : List ObjectKey, Router.collect e found ms = pure found := by
    intro found
    clear hmap
    induction ms with
    | nil => rfl
    | cons m' rest ih =>
      rw [collect_cons_of_not_accepts (h m' List.mem_cons_self)]
      exact ih fun m'' hm'' => h m'' (List.mem_cons_of_mem m' hm'')
  rw [Router.collect, if_pos hm, Call.runOn_bind, hmap]
  dsimp only
  rw [hrest]
  rfl

variable {ns : String} {k : ObjectKey} {e : WatchEvent}

/-- An event of which the kind is a text has one of the given kinds if the text is among them. -/
theorem hasKind_of_kind {kind : String} (he : e.kind = .text kind) (kinds : List Value) :
    e.hasKind kinds = decide (.text kind ∈ kinds) := by
  rw [Bool.eq_iff_iff, decide_eq_true_eq]
  simp only [WatchEvent.hasKind, he, List.any_eq_true, Value.same_text_iff, exists_eq_right]

/-- So has an event on an object whose kind is a text. -/
theorem hasKind_eq {kind : String} (he : e.object.kind? = some (.text kind)) (kinds : List Value) :
    e.hasKind kinds = decide (.text kind ∈ kinds) := by
  refine hasKind_of_kind ?_ kinds
  unfold WatchEvent.kind
  rw [he]
  rfl

/-- The mappers that are there for other objects do not accept events on managed resources. -/
theorem not_accepts_of_managed (hk : Managed ns k) (hkind : e.object.kind? = some k.kind) :
    ∀ m ∈ [Mapper.childDeletion,
      Mapper.zoom (·.shared) Operator.setShared (Mapper.onCluster
        (.clusterProxy [Kind.operatorSource, Kind.catalogSourceConfig] (some (.text ns)))),
      Mapper.zoom (·.shared) Operator.setShared (Mapper.onTracker .hub)],
      (m : Mapper (Operator δ)).accepts e = false := by
  have others : ∀ kinds ∈ [Mapper.childKinds, [.text Kind.proxy], [.text Kind.operatorHub]],
      e.hasKind kinds = false := by
    intro kinds hkinds
    rcases hk.kind with hkind' | hkind' <;>
      rw [hasKind_eq (hkind' ▸ hkind), decide_eq_false_iff_not] <;> revert kinds <;> decide
  intro m hm
  simp only [List.mem_cons, List.not_mem_nil, or_false] at hm
  rcases hm with rfl | rfl | rfl
  · simp [Mapper.childDeletion, others]
  · simp [Mapper.zoom, Mapper.onCluster, Mapper.clusterProxy, others]
  · simp [Mapper.zoom, Mapper.onTracker, Mapper.hub, others]

/-- The mapper of a managed kind finds the key of the object itself. -/
theorem runOn_map_own (hid : e.object.identity? = some k) (kind : Value) (o : Operator δ) :
    ((Mapper.own kind (some (.text ns))).map e).runOn o = (o, .ok [k]) := by
  have hkey : e.object.key? = .ok k := by
    unfold Manifest.key?
    rw [hid]
  simp only [Mapper.own, hkey]
  rfl

/-- An event on a managed resource of the namespace yields the key of the resource and nothing
else. -/
theorem runOn_route_own (hk : Managed ns k) (he : Store.keyOf e.object = .ok k) (o : Operator δ) :
    ((Operator.router (some (.text ns))).route e).runOn o = (o, .ok [k]) := by
  obtain ⟨hid, -⟩ := Store.keyOf_eq_ok_iff.mp he
  obtain ⟨hkind, hns⟩ := kind?_of_identity? hid
  have hin : Mapper.inNamespace e.object (some (.text ns)) = true := by
    simp [Mapper.inNamespace, hns, hk.ns]
  have hforeign := not_accepts_of_managed (δ := δ) hk hkind
  unfold Router.route Operator.router
  -- Of the mappers of the two managed kinds, the one of the kind of the event accepts it.
  rcases hk.kind with hkind' | hkind'
  · have hasKind := hasKind_eq (hkind' ▸ hkind)
    refine runOn_collect_of_accepts ?_ (runOn_map_own hid _ o)
      (List.forall_mem_cons.mpr ⟨?_, hforeign⟩)
    · simp [Mapper.own, hin, hasKind]
    · simp [Mapper.own, hasKind, Kind.operatorSource, Kind.catalogSourceConfig]
  · have hasKind := hasKind_eq (hkind' ▸ hkind)
    have hsource : (Mapper.own (.text Kind.operatorSource) (some (.text ns)) :
        Mapper (Operator δ)).accepts e = false := by
      simp [Mapper.own, hasKind, Kind.operatorSource, Kind.catalogSourceConfig]
    rw [collect_cons_of_not_accepts hsource]
    refine runOn_collect_of_accepts ?_ (runOn_map_own hid _ o) hforeign
    simp [Mapper.own, hin, hasKind]

/-- Whether the controllers are those of the managed kinds. -/
def Served (o : Operator δ) : Prop :=
  o.controllers.map (·.kind) = [Kind.catalogSourceConfig, Kind.operatorSource]

/-- Whether a key is dirty at one of the controllers. -/
def DirtyAt (k : ObjectKey) (o : Operator δ) : Prop :=
  ∃ c ∈ o.controllers, k ∈ c.queue.dirty

/-- A managed resource has a controller. -/
theorem Served.controllerOf? {o : Operator δ} (hs : Served o) (hk : Managed ns k) :
    ∃ kind i, k.kind = .text kind ∧ o.controllerOf? kind = some i ∧
      (Operator.router (some (.text ns)) : Router (Operator δ)).sinks.find? k.kind =
        some (Operator.sink kind) := by
  have hfind : ∀ kind, o.controllerOf? kind =
      [Kind.catalogSourceConfig, Kind.operatorSource].findIdx? fun a => a == kind := by
    intro kind
    unfold Operator.controllerOf?
    rw [← hs, List.findIdx?_map]
    rfl
  rcases hk.kind with hkind | hkind
  · exact ⟨_, 1, hkind, hfind _, hkind ▸ rfl⟩
  · exact ⟨_, 0, hkind, hfind _, hkind ▸ rfl⟩

/-- A key that is handed over to an open queue is dirty. -/
theorem dirty_deliver_own {o : Operator δ} (hs : Served o)
    (hopen : ∀ c ∈ o.controllers, c.queue.closed = false) (hk : Managed ns k)
    (hf : k.fault? = none) :
    DirtyAt k (((Operator.router (some (.text ns))).deliver [k]).runOn o).1 := by
  obtain ⟨kind, i, hkind, hi, hfind⟩ := hs.controllerOf? hk
  obtain ⟨c, hc, hckind⟩ := exists_of_controllerOf? hi
  have hmem : c ∈ o.controllers := List.mem_of_getElem? hc
  have hnclosed : ¬ c.queue.closed = true := by simp [hopen c hmem]
  -- The sink of the kind takes the key, as its queue is open and the key can be looked up.
  have henqueue : c.enqueue k = ({ c with queue := c.queue.add k }, .ok ()) := by
    unfold Controller.enqueue
    rw [if_pos (by simp [hkind, hckind]), if_neg hnclosed, hf]
  have hrun : (((Operator.router (some (.text ns))).deliver [k]).runOn o).1 =
      { o with controllers := o.controllers.set i { c with queue := c.queue.add k } } := by
    have hscalar : k.kind.isScalar = true := by
      rw [hkind]
      rfl
    unfold Router.deliver
    simp only [hscalar, hfind]
    simp only [Bool.not_true, Bool.false_eq_true, if_false]
    rw [Call.runOn_bind, runOn_sink hi hc, henqueue]
    rfl
  rw [hrun]
  refine ⟨_, List.mem_set (List.getElem?_eq_some_iff.mp hc).1 _, ?_⟩
  have hstanding := standing_add (hopen c hmem) k k
  rw [if_pos rfl] at hstanding
  have hdirty := congrArg Standing.dirty hstanding
  simpa [standing] using hdirty

/-- Once an event on a managed resource of the namespace has been handled, its key is dirty. -/
theorem dirty_handle_own {o : Operator δ} (hs : Served o)
    (hopen : ∀ c ∈ o.controllers, c.queue.closed = false) (hk : Managed ns k)
    (he : Store.keyOf e.object = .ok k) :
    DirtyAt k ((Operator.router (some (.text ns))).handle e o) := by
  unfold Router.handle Router.routeAndDeliver
  rw [Call.runOn_bind, runOn_route_own hk he]
  exact dirty_deliver_own hs hopen hk (Store.keyOf_eq_ok_iff.mp he).2

end

end CatalogOperator.Proofs.Operation
