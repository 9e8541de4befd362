import CatalogOperator.Proofs.Operator.Start

/-!
# `CatalogOperator.Proofs.Operator.Locality`: operator sources of one namespace

An operator that watches a namespace reconciles no operator source of any other one. The keys that
mappers find, and those that a resync lists, are of the namespace; only the owner of a deleted child
may be elsewhere, and that is a catalog source config. So the names of the operator sources that are
reconciled tell them apart.

* `Call.Returns`: what is said of the result of an operation that goes well.
* `namedOwner?`: the owner of a deleted child. `mem_asks_cases`: every other key that a step asks for
  is of the namespace.
* `Within`: the keys that are of a namespace if they are those of operator sources.
* `Local`: an operator that knows of no others. `Step.isLocal` keeps it, and `Local.within_stretch`
  says that no others are reconciled.
-/

set_option autoImplicit false

namespace CatalogOperator

/-! ### Results -/

namespace Call

variable {σ τ α β : Type}

/-- Whether an operation, from whatever state it starts, returns only what satisfies a
postcondition. -/
def Returns (post : α → Prop) (c : Call σ α) : Prop :=
  ∀ s a, (c.runOn s).2 = .ok a → post a

variable {post : α → Prop}

/-- A postcondition may be weakened. -/
theorem Returns.mono {post' : α → Prop} {c : Call σ α} (h : c.Returns post)
    (le : ∀ a, post a → post' a) : c.Returns post' :=
  fun s a hrun => le a (h s a hrun)

/-- Every operation returns something or nothing. -/
theorem returns_anything (c : Call σ α) : c.Returns fun _ => True :=
  fun _ _ _ => trivial

/-- A computation that does not look at the state. -/
theorem returns_mk {x : Except Fault α} (h : ∀ a, x = .ok a → post a) :
    Returns post (ExceptT.mk (pure x) : Call σ α) :=
  fun _ a hrun => h a hrun

/-- Returning a value returns just that. -/
theorem Returns.pure {a : α} (h : post a) : Returns post (pure a : Call σ α) := by
  intro s b hrun
  cases hrun
  exact h

/-- An operation that goes on with another one returns what the second one does. -/
theorem Returns.bind {c : Call σ α} {f : α → Call σ β} {Q : β → Prop} (h : c.Returns post)
    (hf : ∀ a, post a → (f a).Returns Q) : Returns Q (c >>= f) := by
  intro s b hrun
  rw [runOn_bind] at hrun
  cases hc : c.runOn s with
  | mk t x =>
    rw [hc] at hrun
    cases x with
    | error e => cases hrun
    | ok a => exact hf a (h s a (congrArg Prod.snd hc)) t b hrun

/-- On a part of a larger state an operation returns the same. -/
theorem Returns.zoom {get : τ → σ} {set : σ → τ → τ} {c : Call σ α} (h : c.Returns post) :
    (c.zoom get set).Returns post :=
  fun whole a hrun => h (get whole) a hrun

/-- What is put in the place of a failure satisfies the postcondition as well. -/
theorem Returns.orOnStoreFailure {c : Call σ α} {other : α} (h : c.Returns post)
    (ho : post other) : (Mapper.orOnStoreFailure c other).Returns post := by
  intro s a hrun
  rw [Proofs.Operation.runOn_orOnStoreFailure] at hrun
  dsimp only at hrun
  split at hrun
  · split at hrun
    · cases hrun
      exact ho
    · cases hrun
  · next hok => exact h s a (hok.trans hrun)

end Call

namespace Proofs.Operation

open Queue

section

variable {δ : Type}

/-! ### Keys that mappers find -/

/-- The owner that the deletion of a child names. A deletion of which the final state is unknown does
not count. -/
def namedOwner? (e : WatchEvent) : Option ObjectKey :=
  if e.hasKind Mapper.childKinds && e.type == .delete && !e.stateUnknown then Mapper.owner? e.object
  else none

variable {ns : String} {k : ObjectKey} {m : Manifest} {e : WatchEvent}

/-- The owner of a child is a catalog source config. -/
theorem kind_of_namedOwner? (h : namedOwner? e = some k) :
    k.kind = .text Kind.catalogSourceConfig := by
  unfold namedOwner? Mapper.owner? at h
  dsimp only at h
  split at h
  · split at h
    · rw [← Option.some.inj h]
    · cases h
  · cases h

/-- The key of an object of a namespace is of the namespace. -/
theorem ns_of_inNamespace (hid : m.identity? = some k)
    (h : Mapper.inNamespace m (some (.text ns)) = true) : k.ns = .text ns := by
  unfold Mapper.inNamespace at h
  rw [(kind?_of_identity? hid).2] at h
  exact Value.same_text_iff.mp h

/-- A union of keys holds the keys of both parts and no others. -/
theorem mem_union {more keys : List ObjectKey} : k ∈ Router.union keys more ↔ k ∈ keys ∨ k ∈ more := by
  unfold Router.union
  induction more generalizing keys with
  | nil => simp
  | cons k' rest ih =>
    rw [List.foldl_cons, ih, List.mem_cons]
    split
    · next hmem =>
      -- The key is there already.
      have hmem : k' ∈ keys := by simpa using hmem
      constructor
      · rintro (h | h)
        · exact .inl h
        · exact .inr (.inr h)
      · rintro (h | rfl | h)
        · exact .inl h
        · exact .inl hmem
        · exact .inr h
    · rw [List.mem_append, List.mem_singleton, or_assoc]

/-- All that mappers find of an event is found if each of those that accept it finds no more. -/
theorem returns_collect {σ : Type} {P : ObjectKey → Prop} {ms : List (Mapper σ)}
    (h : ∀ m ∈ ms, m.accepts e = true → (m.map e).Returns fun ks => ∀ k ∈ ks, P k)
    {found : List ObjectKey} (hfound : ∀ k ∈ found, P k) :
    (Router.collect e found ms).Returns fun ks => ∀ k ∈ ks, P k := by
  induction ms generalizing found with
  | nil => exact .pure hfound
  | cons m rest ih =>
    have hrest : ∀ m' ∈ rest, m'.accepts e = true → (m'.map e).Returns fun ks => ∀ k ∈ ks, P k :=
      fun m' hm' => h m' (List.mem_cons_of_mem m hm')
    unfold Router.collect
    split
    · next haccepts =>
      refine (h m List.mem_cons_self haccepts).bind fun keys hkeys => ih hrest fun k hk => ?_
      exact (mem_union.mp hk).elim (hfound k) (hkeys k)
    · exact ih hrest hfound

/-- The mapper of a managed kind finds keys of the namespace. -/
theorem returns_own {kind : Value}
    (h : (Mapper.own kind (some (.text ns)) : Mapper (Operator δ)).accepts e = true) :
    ((Mapper.own kind (some (.text ns)) : Mapper (Operator δ)).map e).Returns
      fun ks => ∀ k ∈ ks, k.ns = .text ns := by
  have hns : Mapper.inNamespace e.object (some (.text ns)) = true := (Bool.and_eq_true _ _ ▸ h).2
  refine Call.returns_mk fun ks hks k hk => ?_
  unfold Manifest.key? at hks
  cases hid : e.object.identity? with
  | none =>
    rw [hid] at hks
    cases hks
  | some k' =>
    rw [hid] at hks
    cases hks
    rw [List.mem_singleton.mp hk]
    exact ns_of_inNamespace hid hns

/-- The mapper of deleted children finds the owner that is named. -/
theorem map_childDeletion (h : (Mapper.childDeletion : Mapper (Operator δ)).accepts e = true) :
    (Mapper.childDeletion : Mapper (Operator δ)).map e = pure (namedOwner? e).toList := by
  have haccepted : (e.hasKind Mapper.childKinds && e.type == .delete && !e.stateUnknown) = true := h
  unfold namedOwner?
  rw [if_pos haccepted]
  rfl

/-- The owners that are listed are those of the namespace. -/
theorem returns_ownersOf (kinds : List String) :
    (Mapper.ownersOf (some (.text ns)) kinds : Call (Cluster δ) _).Returns
      fun ks => ∀ k ∈ ks, k.ns = .text ns := by
  induction kinds with
  | nil => exact .pure fun _ hk => nomatch hk
  | cons kind rest ih =>
    refine .bind (Call.returns_anything _) fun ms _ => ?_
    have hlisted : Call.Returns (fun ks => ∀ k ∈ ks, k.ns = .text ns)
        (ExceptT.mk (pure (Mapper.keysOf (ms.filter fun m =>
          Mapper.inNamespace m (some (.text ns))))) : Call (Cluster δ) _) := by
      refine Call.returns_mk fun keys hkeys k hk => ?_
      obtain ⟨m, hm, hid⟩ := exists_of_mem_keysOf hkeys hk
      exact ns_of_inNamespace hid (List.mem_filter.mp hm).2
    refine hlisted.bind fun keys hkeys => ih.bind fun more hmore => ?_
    exact .pure fun k hk => (List.mem_append.mp hk).elim (hkeys k) (hmore k)

/-- The deletion of a child yields the owner that is named and nothing else. -/
theorem runOn_route_named (h : namedOwner? e = some k) (ns : Option Value) (o : Operator δ) :
    ((Operator.router ns).route e).runOn o = (o, .ok [k]) := by
  have haccepts : (Mapper.childDeletion : Mapper (Operator δ)).accepts e = true := by
    unfold namedOwner? at h
    split at h
    · assumption
    · cases h
  obtain ⟨kind, hkind, hchild⟩ : ∃ kind, e.kind = .text kind ∧ .text kind ∈ Mapper.childKinds := by
    have hany : e.hasKind Mapper.childKinds = true := by
      simp only [Mapper.childDeletion, Bool.and_eq_true] at haccepts
      exact haccepts.1.1
    obtain ⟨v, hv, hsame⟩ := List.any_eq_true.mp hany
    obtain ⟨kind, -, rfl⟩ := List.mem_map.mp hv
    rw [Value.same_comm] at hsame
    exact ⟨kind, Value.same_text_iff.mp hsame, hv⟩
  -- No other mapper is there for the kinds of children.
  have hother : ∀ kind' ∈ [Kind.operatorSource, Kind.catalogSourceConfig, Kind.proxy,
      Kind.operatorHub], Value.text kind' ∉ Mapper.childKinds := by decide
  have hforeign : ∀ kind' ∈ [Kind.operatorSource, Kind.catalogSourceConfig, Kind.proxy,
      Kind.operatorHub], e.hasKind [.text kind'] = false := by
    intro kind' hkind'
    rw [hasKind_of_kind hkind, decide_eq_false_iff_not, List.mem_singleton]
    exact fun he => hother kind' hkind' (he ▸ hchild)
  have hrest : ∀ m ∈ [Mapper.zoom (·.shared) Operator.setShared (Mapper.onCluster
        (.clusterProxy [Kind.operatorSource, Kind.catalogSourceConfig] ns)),
      Mapper.zoom (·.shared) Operator.setShared (Mapper.onTracker .hub)],
      (m : Mapper (Operator δ)).accepts e = false := by
    intro m hm
    simp only [List.mem_cons, List.not_mem_nil, or_false] at hm
    rcases hm with rfl | rfl
    · simp [Mapper.zoom, Mapper.onCluster, Mapper.clusterProxy, hforeign]
    · simp [Mapper.zoom, Mapper.onTracker, Mapper.hub, hforeign]
  have hown : ∀ kind' ∈ [Kind.operatorSource, Kind.catalogSourceConfig],
      (Mapper.own (.text kind') ns : Mapper (Operator δ)).accepts e = false := by
    intro kind' hkind'
    have hmem : kind' ∈ [Kind.operatorSource, Kind.catalogSourceConfig, Kind.proxy,
        Kind.operatorHub] := List.mem_append_left [Kind.proxy, Kind.operatorHub] hkind'
    simp [Mapper.own, hforeign kind' hmem]
  unfold Router.route Operator.router
  rw [collect_cons_of_not_accepts (hown _ List.mem_cons_self),
    collect_cons_of_not_accepts (hown _ (List.mem_cons_of_mem _ List.mem_cons_self))]
  refine runOn_collect_of_accepts haccepts ?_ hrest
  rw [map_childDeletion haccepts, h]
  rfl

/-- The keys of an event are of the namespace, apart from the owner that the deletion of a child
names. -/
theorem mem_routed_cases {o : Operator δ} (hk : k ∈ routed (some (.text ns)) e o) :
    k.ns = .text ns ∨ namedOwner? e = some k := by
  have hreturns : ((Operator.router (some (.text ns)) : Router (Operator δ)).route e).Returns
      fun ks => ∀ k ∈ ks, k.ns = .text ns ∨ namedOwner? e = some k := by
    refine returns_collect (fun m hm haccepts => ?_) fun _ hk => nomatch hk
    simp only [Operator.router, List.mem_cons, List.not_mem_nil, or_false] at hm
    -- The mappers in their order: two for the managed kinds, then children, proxy values and the
    -- hub.
    rcases hm with rfl | rfl | rfl | rfl | rfl
    · exact (returns_own haccepts).mono fun ks hks k hk => .inl (hks k hk)
    · exact (returns_own haccepts).mono fun ks hks k hk => .inl (hks k hk)
    · rw [map_childDeletion haccepts]
      exact .pure fun k hk => .inr (Option.mem_toList.mp hk)
    · refine .zoom (.zoom (.orOnStoreFailure ?_ fun _ hk => nomatch hk))
      refine .bind (Call.returns_anything _) fun _ _ => ?_
      exact (returns_ownersOf _).mono fun ks hks k hk => .inl (hks k hk)
    · refine .zoom (.zoom fun s ks hrun => ?_)
      cases hrun
      exact fun _ hk => nomatch hk
  unfold routed at hk
  cases hroute : ((Operator.router (some (.text ns))).route e).runOn o with
  | mk o' x =>
    rw [hroute] at hk
    cases x with
    | error f => cases hk
    | ok ks => exact hreturns o ks (congrArg Prod.snd hroute) k hk

/-- The owner that a step names: that of the deleted child whose deletion it handles. -/
def named? (o : Operator δ) : Move → Option ObjectKey
  | .route => o.feed.events.head?.bind namedOwner?
  | _ => none

/-- A step names only owners that are catalog source configs. -/
theorem kind_of_named? {o : Operator δ} {m : Move} (h : named? o m = some k) :
    k.kind = .text Kind.catalogSourceConfig := by
  cases m with
  | route =>
    obtain ⟨e, -, hnamed⟩ := Option.bind_eq_some_iff.mp h
    exact kind_of_namedOwner? hnamed
  | _ => cases h

/-- The owner that a step names is asked for. -/
theorem mem_asks_of_named? {o : Operator δ} {m : Move} (h : named? o m = some k) :
    k ∈ asks o m := by
  cases m with
  | route =>
    obtain ⟨e, he, hnamed⟩ := Option.bind_eq_some_iff.mp h
    obtain ⟨rest, hevents⟩ := List.head?_eq_some_iff.mp he
    have htake : o.feed.take? = some (e, { o.feed with events := rest }) := by
      unfold Feed.take?
      rw [hevents]
    unfold asks routed
    rw [htake]
    dsimp only
    rw [runOn_route_named hnamed]
    exact List.mem_singleton_self k
  | _ => cases h

/-- The keys that a step asks for are of the namespace, apart from the owner that it names. -/
theorem mem_asks_cases {o : Operator δ} (hns : o.ns = some (.text ns))
    (hwatches : ∀ c ∈ o.controllers, c.ns = some (.text ns)) {m : Move} (hk : k ∈ asks o m) :
    k.ns = .text ns ∨ named? o m = some k := by
  unfold asks at hk
  split at hk
  · split at hk
    · cases hk
    · next e feed htake =>
      rw [hns] at hk
      refine (mem_routed_cases hk).imp_right fun hnamed => ?_
      unfold Feed.take? at htake
      split at htake
      · cases htake
      · next hevents =>
        cases htake
        simp [named?, hevents, hnamed]
  · -- A resync asks for what its controller covers.
    unfold listed at hk
    split at hk
    · cases hk
    · next c hc =>
      have hcovers := (List.mem_filter.mp hk).2
      unfold Controller.covers at hcovers
      rw [hwatches c (List.mem_of_getElem? hc)] at hcovers
      exact .inl (Value.same_text_iff.mp hcovers)
  · cases hk

/-! ### Operators that keep to their namespace -/

/-- Whether a key is of a namespace if it is that of an operator source. -/
def Within (ns : String) (k : ObjectKey) : Prop :=
  k.kind = .text Kind.operatorSource → k.ns = .text ns

/-- Whether the controllers of an operator are those of a namespace, and nothing is known of the
operator sources of any other one. -/
structure Local (ns : String) (o : Operator δ) : Prop where
  watches : ∀ c ∈ o.controllers, c.ns = some (.text ns)
  blank : ∀ c ∈ o.controllers, ∀ k, ¬ Within ns k → (standing c.queue k).Blank

variable {o o' : Operator δ} {h : List Happening}

/-- A step asks for no operator sources of another namespace. -/
theorem Local.within_of_mem_asks (hl : Local ns o) (hns : o.ns = some (.text ns)) {m : Move}
    (hk : k ∈ asks o m) : Within ns k := by
  intro hkind
  refine (mem_asks_cases hns hl.watches hk).resolve_right fun hnamed => ?_
  -- An owner that is named is no operator source.
  have hcatalog : k.kind = .text Kind.catalogSourceConfig := kind_of_named? hnamed
  rw [hkind] at hcatalog
  exact absurd (Value.text.inj hcatalog) (by decide)

/-- A key of which nothing is known stays so over several shifts, unless it is asked for. -/
theorem Shifts.blank {now : Rat} {backoff : Nat → Option Number} {s s' : Standing ObjectKey}
    (hs : Shifts now backoff k s h s') (hb : s.Blank) (hk : .asked k ∉ h) : s'.Blank := by
  induction hs with
  | refl => exact hb
  | step _ hshift ih =>
    rw [List.mem_append, not_or] at hk
    exact hshift.blank (ih hk.1) hk.2

/-- Every step keeps an operator to its namespace. -/
theorem Step.isLocal (hw : Wired ns o) (hl : Local ns o) (hs : Step o h o') : Local ns o' := by
  have hasked : ∀ k, .asked k ∈ h → Within ns k := by
    intro k hk
    cases hs with
    | write w => simp at hk
    | act m ha =>
      cases ha with
      | pass =>
        obtain ⟨k', hk', he⟩ := List.mem_map.mp hk
        cases he
        exact hl.within_of_mem_asks hw.ns hk'
      | stretch s ns => exact absurd hk not_asked_mem_happenings
  have hturns := hs.turns hw
  constructor
  · intro c' hc'
    obtain ⟨c, hc, ht⟩ := hturns.exists_turns hc'
    exact ht.sameOffice.ns.trans (hl.watches c hc)
  · intro c' hc' k hk
    obtain ⟨c, hc, ht⟩ := hturns.exists_turns hc'
    refine (ht.shifts (hw.staffed c hc) k).blank (hl.blank c hc k hk) fun hmem => hk (hasked k ?_)
    exact mem_of_mem_about (mem_of_mem_about hmem)

/-- An operator of a namespace stays one whatever happens. -/
theorem History.isLocal (hw : Wired ns o) (hl : Local ns o) (hh : History o h o') : Local ns o' := by
  induction hh with
  | nil => exact hl
  | snoc hh hs ih => exact hs.isLocal (hh.wired hw) ih

/-- No operator source of another namespace is reconciled. -/
theorem Local.within_stretch (hl : Local ns o) (hw : Wired ns o) {m : Move} {s : Stretch δ}
    (hs : stretch? o m = some s) : Within ns s.key := by
  obtain ⟨c, hc, hnot⟩ := exists_not_blank_of_stretch? hw.staffed hs
  exact Classical.byContradiction fun hk => hnot (hl.blank c hc s.key hk)

/-- An operator that has just been started keeps to its namespace. -/
theorem local_of_start {cluster : Cluster δ} {D : Deployer δ} {config : OperatorConfig}
    (hstart : Operator.start.runOn (Operator.init cluster D config) = (o, .ok ())) :
    Local config.ns o := by
  constructor
  · intro c hc
    rcases opened_of_start hstart hc with ho | ho <;> exact ho.ns
  · intro c hc k _
    rw [standing_of_start hstart hc]
    exact ⟨rfl, rfl, rfl⟩

end

end Proofs.Operation

end CatalogOperator
