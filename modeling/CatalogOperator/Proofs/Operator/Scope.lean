import CatalogOperator.Proofs.Operator.Tidiness
import CatalogOperator.Proofs.Reconcile.Neighbours

/-!
# `CatalogOperator.Proofs.Operator.Scope`: resources outside the namespace

An operator leaves the resources outside its namespace alone, with one exception: when a child is
deleted whose labels name an owner elsewhere, the owner is reconciled. The store may hold anything,
and others may make of the cluster what they like and publish any events, so the result is about the
routing and the resyncs themselves.

* `Journey`: what may happen to an operator, with the owners that have been named.
* `Scoped`: what holds of an operator all along. `Scoped.step` and `Journey.scoped`: every step and
  every journey keep it.
* `untouched`: a key outside the namespace that has not been named is neither queued nor reconciled,
  and no step writes the object under it.
* `not_untouched`: an owner elsewhere that has been named is queued, and written.
-/

set_option autoImplicit false

namespace CatalogOperator.Proofs.Operation

open Queue Reconcile

section

variable {δ : Type}

/-! ### Journeys -/

/-- What may happen to an operator: it takes a step, or others make of the cluster what they like, as
long as every object stands under its own key. The owners that the steps name are noted. -/
inductive Journey (o₀ : Operator δ) : List ObjectKey → Operator δ → Prop
  | nil : Journey o₀ [] o₀
  | step {named : List ObjectKey} {o : Operator δ} (m : Move) : Journey o₀ named o →
    o.canStep m = true → Journey o₀ (named ++ (named? o m).toList) (o.step m)
  | others {named : List ObjectKey} {o : Operator δ} (cluster : Cluster δ) : Journey o₀ named o →
    cluster.store.Filed → Journey o₀ named (o.setShared { o.shared with cluster })

/-- What holds of an operator all along: it is one of a namespace, its workers keep to their keys, and
nothing is known of a key outside the namespace unless it is that of an owner that was named. -/
structure Scoped (ns : String) (D : Deployer δ) (named : List ObjectKey) (o : Operator δ) :
    Prop where
  routes : o.ns = some (.text ns)
  served : Served o
  staffed : ∀ c ∈ o.controllers, Staffed c
  watches : ∀ c ∈ o.controllers, c.ns = some (.text ns)
  manages : ∀ c ∈ o.controllers, Manages D c
  filed : o.shared.cluster.store.Filed
  workers : ∀ c ∈ o.controllers, ∀ k t resume, .busy k t resume ∈ c.workers →
    ∀ w s, KeepsTo D k s (resume w s)
  blank : ∀ c ∈ o.controllers, ∀ k, k.ns ≠ .text ns → k ∉ named → (standing c.queue k).Blank

variable {ns : String} {D : Deployer δ} {k : ObjectKey} {named : List ObjectKey}
  {o o₀ : Operator δ} {m : Move} {s : Stretch δ}

/-- Each part of a reconcile keeps to its key. -/
theorem Scoped.stretch (h : Scoped ns D named o) (hD : WorksThroughStore D) (hi : KeepsIdentity D)
    (hs : stretch? o m = some s) : KeepsTo D s.key o.shared s.run := by
  rcases stretch?_cases hs with ⟨c, hc, -, -, hrun⟩ | ⟨c, hc, -, t, resume, hmem, hrun⟩
  · rw [hrun]
    exact (h.manages c hc).keepsTo hD hi h.filed s.key
  · rw [hrun]
    exact h.workers c hc s.key t resume hmem _ _

/-- A key of which nothing is known is not reconciled. -/
theorem Scoped.key_ne (h : Scoped ns D named o) (hk : k.ns ≠ .text ns) (hnamed : k ∉ named)
    (hs : stretch? o m = some s) : s.key ≠ k := by
  rintro rfl
  obtain ⟨c, hc, hnot⟩ := exists_not_blank_of_stretch? h.staffed hs
  exact hnot (h.blank c hc _ hk hnamed)

/-- To what is shared, a step does what a part of a reconcile does, or nothing to any object. -/
theorem Scoped.shared_cases (h : Scoped ns D named o) (hcan : o.canStep m = true) :
    (∃ s, stretch? o m = some s ∧ (o.step m).shared = s.run.state) ∨
      (o.step m).shared.cluster.store.objects = o.shared.cluster.store.objects := by
  cases hs : stretch? o m with
  | none => exact .inr (step_pass h.served.nodup hcan hs).1.aside.objects
  | some s =>
    obtain ⟨cs, delays, -, -, he⟩ := step_stretch h.served.nodup h.staffed hcan hs []
    exact .inl ⟨s, rfl, by rw [he]⟩

/-- A step keeps what holds all along, with the owner that it names noted. -/
theorem Scoped.step (h : Scoped ns D named o) (hD : WorksThroughStore D) (hi : KeepsIdentity D)
    (hcan : o.canStep m = true) : Scoped ns D (named ++ (named? o m).toList) (o.step m) := by
  obtain ⟨happened, hturns, hasked⟩ := step_turns h.served.nodup h.staffed hcan
  refine {
    routes := (step_frame h.served.nodup h.staffed hcan).1.trans h.routes
    served := hturns.map_kind.trans h.served
    staffed := fun c' hc' => ?_
    watches := fun c' hc' => ?_
    manages := fun c' hc' => ?_
    filed := ?_
    workers := fun c' hc' k t resume hmem => ?_
    blank := fun c' hc' k hk hnamed => ?_ }
  · obtain ⟨c, hc, ht⟩ := hturns.exists_turns hc'
    exact ht.staffed (h.staffed c hc)
  · obtain ⟨c, hc, ht⟩ := hturns.exists_turns hc'
    exact ht.sameOffice.ns.trans (h.watches c hc)
  · obtain ⟨c, hc, ht⟩ := hturns.exists_turns hc'
    exact (h.manages c hc).of_eq ht.sameOffice.kind ht.sameOffice.reconcile
  · rcases h.shared_cases hcan with ⟨s, hs, hshared⟩ | hobjects
    · obtain ⟨notices, htrail⟩ := (h.stretch hD hi hs).recorded.state
      rw [hshared]
      exact htrail.filed h.filed
    · exact fun k m hm => h.filed k m (by rwa [hobjects] at hm)
  · rcases step_busy_cases h.served.nodup h.staffed hcan hc' hmem with
      ⟨c, hc, hmem⟩ | ⟨s, u, d, hs, rfl, hrun⟩
    · exact h.workers c hc k t resume hmem
    · have hkeeps := h.stretch hD hi hs
      rw [hrun] at hkeeps
      exact hkeeps.woken
  · -- A key that is asked for is of the namespace, or it is named in this very step.
    rw [List.mem_append, not_or, Option.mem_toList] at hnamed
    obtain ⟨c, hc, ht⟩ := hturns.exists_turns hc'
    refine (ht.shifts (h.staffed c hc) k).blank (h.blank c hc k hk hnamed.1) fun hmem => ?_
    have hmem' : k ∈ asks o m := hasked k (mem_of_mem_about (mem_of_mem_about hmem))
    exact (mem_asks_cases h.routes h.watches hmem').elim hk hnamed.2

/-- What others do to the cluster concerns neither the queues nor the workers. -/
theorem Scoped.others (h : Scoped ns D named o) {cluster : Cluster δ} (hf : cluster.store.Filed) :
    Scoped ns D named (o.setShared { o.shared with cluster }) :=
  ⟨h.routes, h.served, h.staffed, h.watches, h.manages, hf, h.workers, h.blank⟩

/-- What holds of an operator at first holds on every journey. -/
theorem Journey.scoped (hD : WorksThroughStore D) (hi : KeepsIdentity D) (h : Scoped ns D [] o₀)
    (hc : Journey o₀ named o) : Scoped ns D named o := by
  induction hc with
  | nil => exact h
  | step m _ hcan ih => exact ih.step hD hi hcan
  | others cluster _ hf ih => exact ih.others hf

/-- Only catalog source configs are named. -/
theorem Journey.kind_of_named (hc : Journey o₀ named o) (hk : k ∈ named) :
    k.kind = .text Kind.catalogSourceConfig := by
  induction hc with
  | nil => cases hk
  | step m _ _ ih =>
    rcases List.mem_append.mp hk with hk | hk
    · exact ih hk
    · exact kind_of_named? (Option.mem_toList.mp hk)
  | others _ _ _ ih => exact ih hk

/-- The object under a key outside the namespace that has not been named is as it was after a
step. -/
theorem Scoped.sameAt (h : Scoped ns D named o) (hD : WorksThroughStore D) (hi : KeepsIdentity D)
    (hk : k.ns ≠ .text ns) (hnamed : k ∉ named) (hspares : Spares D k) (m : Move) :
    SameAt k o.shared (o.step m).shared := by
  by_cases hcan : o.canStep m = true
  · rcases h.shared_cases hcan with ⟨s, hs, hshared⟩ | hobjects
    · rw [hshared]
      have hkeeps := (h.stretch hD hi hs).others k (h.key_ne hk hnamed hs).symm hspares
      exact hkeeps.view_state
    · exact sameAt_of_objects_eq hobjects k
  · unfold Operator.step
    rw [if_neg hcan]
    rfl

/-! ### Resources elsewhere -/

variable {cluster : Cluster δ} {config : OperatorConfig}

/-- An operator that has just been started knows of no key at all. -/
theorem scoped_of_start (hfiled : cluster.store.Filed)
    (hstart : Operator.start.runOn (Operator.init cluster D config) = (o, .ok ())) :
    Scoped config.ns D [] o := by
  obtain ⟨-, -, -, -, hns, -, -⟩ := start_cases hstart
  have htended := tended_of_start hstart
  refine ⟨hns, served_of_start hstart, staffed_of_start hstart, htended.watches, htended.manages,
    filed_of_start hstart hfiled, fun c hc k t resume hmem => ?_, fun c hc k _ _ => ?_⟩
  · exact absurd hmem (not_busy_of_start hstart hc)
  · rw [standing_of_start hstart hc]
    exact ⟨rfl, rfl, rfl⟩

/-- Whatever happens to an operator, a step asks for a key outside its namespace only in order to
follow the deletion of a child that names it, and then it does. As long as no step has named it, which
none does if it is that of an operator source, the key is neither queued nor being processed nor
delayed, no reconcile of it begins or goes on, and no step changes the object under it, as far as the
deployer leaves that alone. -/
theorem untouched (hD : WorksThroughStore D) (hi : KeepsIdentity D) (hfiled : cluster.store.Filed)
    (hstart : Operator.start.runOn (Operator.init cluster D config) = (o₀, .ok ()))
    (hc : Journey o₀ named o) (hk : k.ns ≠ .text config.ns) :
    (∀ m, k ∈ asks o m ↔ named? o m = some k) ∧
      ((k.kind = .text Kind.catalogSourceConfig → k ∉ named) →
        (∀ c ∈ o.controllers, k ∉ c.queue.queue ∧ (standing c.queue k).Blank) ∧
        (∀ m s, stretch? o m = some s → s.key ≠ k) ∧
        (Spares D k → ∀ m, SameAt k o.shared (o.step m).shared)) := by
  have h := hc.scoped hD hi (scoped_of_start hfiled hstart)
  refine ⟨fun m => ⟨fun hmem => (mem_asks_cases h.routes h.watches hmem).resolve_left hk,
    mem_asks_of_named?⟩, fun hnot => ?_⟩
  have hnamed : k ∉ named := fun hmem => hnot (hc.kind_of_named hmem) hmem
  refine ⟨fun c hc => ?_, fun m s hs => h.key_ne hk hnamed hs, h.sameAt hD hi hk hnamed⟩
  have hblank := h.blank c hc k hk hnamed
  exact ⟨fun hmem => (h.staffed c hc).not_blank_of_queued hmem hblank, hblank⟩

/-! ### An owner elsewhere -/

/-- A new catalog source config outside the namespace that is watched. -/
def distant : CatalogSourceConfig where
  name := .text "c"
  ns := .text "elsewhere"
  spec := { targetNamespace := .text "t", packages := .text "p" }
  packages := []

/-- A service whose labels name it as the owner. -/
def offspring : ChildObject where
  kind := .text Kind.service
  name := .text "x"
  ns := .text "t"
  labels := [(.text Mapper.ownerNameLabel, .text "c"),
    (.text Mapper.ownerNamespaceLabel, .text "elsewhere")]

/-- A cluster with both of them. -/
def household : Cluster Unit :=
  (Call.runOn (Write.create (.child offspring)).call (holding distant ()).cluster).1

/-- An operator that has just been started over this cluster. -/
def watching : Operator Unit :=
  (Operator.start.runOn (Operator.init household idle plainConfig)).1

/-- The cluster after the service has been deleted. -/
def diminished : Cluster Unit :=
  (Call.runOn (Write.delete ⟨offspring.kind, offspring.ns, offspring.name⟩).call
    watching.shared.cluster).1

/-- The operator after all three events have been routed. -/
def summoned : Operator Unit :=
  (((watching.setShared { watching.shared with cluster := diminished }).step .route).step
    .route).step .route

/-- The idle deployer keeps the identity of what it is given. -/
theorem keepsIdentity_idle : KeepsIdentity (idle : Deployer δ) where
  ensure _ _ := .pure ⟨rfl, rfl⟩
  populate r _ := ⟨r.packages, rfl⟩

/-- The operator starts without an error. -/
theorem start_watching :
    Operator.start.runOn (Operator.init household idle plainConfig) = (watching, .ok ()) :=
  rfl

/-- Both objects stand under their own keys. -/
theorem filed_household : household.store.Filed :=
  Write.filed_call _ (filed_holding distant () rfl)

/-- The owner is named on the way. -/
theorem journey_summoned : Journey watching [distant.key] summoned := by
  have hfiled : diminished.store.Filed :=
    Write.filed_call _ (filed_of_start start_watching filed_household)
  have hdeleted := (Journey.nil : Journey watching [] watching).others diminished hfiled
  have hrouted := ((hdeleted.step .route (by decide +kernel)).step .route
    (by decide +kernel)).step .route (by decide +kernel)
  obtain ⟨named, hjourney, rfl⟩ : ∃ named, Journey watching named summoned ∧
      named = [distant.key] := ⟨_, hrouted, by decide +kernel⟩
  exact hjourney

/-- Another resource next to the owner is not touched. -/
theorem untouched_summoned :
    let other : ObjectKey := { distant.key with name := .text "d" }
    other.ns ≠ .text plainConfig.ns ∧ other ∉ [distant.key] ∧
      (∀ c ∈ summoned.controllers, other ∉ c.queue.queue) ∧
      SameAt other summoned.shared (summoned.step (.work 0 0)).shared := by
  intro other
  have hk : other.ns ≠ .text plainConfig.ns := by decide
  have hnamed : other ∉ [distant.key] := by decide
  obtain ⟨hblank, -, hsame⟩ := (untouched worksThroughStore_idle keepsIdentity_idle filed_household
    start_watching journey_summoned hk).2 fun _ => hnamed
  exact ⟨hk, hnamed, fun c hc => (hblank c hc).1, hsame (spares_idle _) _⟩

/-- The owner is queued although it is outside the namespace, and the next step writes it. -/
theorem not_untouched :
    Operator.start.runOn (Operator.init household idle plainConfig) = (watching, .ok ()) ∧
      (¬ ∀ named o, Journey watching named o → ∀ c ∈ o.controllers, ∀ k ∈ c.queue.queue,
        k.ns = .text plainConfig.ns) ∧
      ¬ ∀ named o, Journey watching named o → ∀ m k, k.ns ≠ .text plainConfig.ns →
        SameAt k o.shared (o.step m).shared := by
  refine ⟨start_watching, fun hqueued => ?_, fun hsame => ?_⟩
  · have hqueue : ∃ c ∈ summoned.controllers, distant.key ∈ c.queue.queue := by decide +kernel
    obtain ⟨c, hc, hmem⟩ := hqueue
    exact absurd (hqueued _ _ journey_summoned c hc _ hmem) (by decide)
  · have hwritten : objectAt distant.key (summoned.step (.work 0 0)).shared ≠
        objectAt distant.key summoned.shared := by decide +kernel
    exact hwritten (hsame _ _ journey_summoned (.work 0 0) distant.key (by decide))

end

end CatalogOperator.Proofs.Operation
