import CatalogOperator.Proofs.Operator.Routing
import Mathlib.Tactic.Linarith

/-!
# `CatalogOperator.Proofs.Operator.Steps`: what one step of the operator does

A step carries out a part of a reconcile, or it does something else. In the former case it does to
what is shared exactly what this part of the reconcile does. In the latter case it only looks at what
is shared, except that the first event is taken from the feed when it is routed. Either way it does
nothing to the controllers but what `AllTurns` allows.

* `Stretch`: a part of a reconcile. `stretch?` tells which one a step carries out.
* `asks`: the keys that a step asks for otherwise.
* `Carried`, `Passes`: what a step does in either case. `step_stretch` and `step_pass` say so.
* `step_turns`, `step_frame`, `step_busy_cases`: what any step does to the controllers, to the
  operator besides, and to the workers.
-/

set_option autoImplicit false

namespace CatalogOperator.Proofs.Operation

open Queue

section

variable {δ : Type}

/-! ### Parts of a reconcile -/

/-- A part of a reconcile of a key, which may be the first one. -/
structure Stretch (δ : Type) where
  key : ObjectKey
  fresh : Bool
  run : Run (Shared δ) (Except Fault Bool)

/-- What a worker gets that asks for a key. -/
def handout (c : Controller δ) (j : Nat) : WorkQueue ObjectKey Nat × Handout ObjectKey :=
  match c.workers[j]? with
  | some .waiting => c.queue.resume j
  | _ => c.queue.get j

/-- The part of a reconcile that a step carries out, if it does so. -/
def stretch? (o : Operator δ) : Move → Option (Stretch δ)
  | .work i j => (o.controllers[i]?).bind fun c =>
    match (handout c j).2 with
    | .key k => some ⟨k, true, (c.reconcile k).run o.shared⟩
    | _ => none
  | .wake i j => (o.sleeper? i j).map fun s => ⟨s.1, false, s.2.2 .elapsed o.shared⟩
  | _ => none

/-- The end of a reconcile, if a run gets that far. -/
def ending (now : Rat) (k : ObjectKey) : Run (Shared δ) (Except Fault Bool) → List Happening
  | .finished _ r => [.ended now k r]
  | .asleep _ _ _ => []

/-- What happens during a part of a reconcile that gives rise to the given notices. -/
def Stretch.happenings (s : Stretch δ) (now : Rat) (ns : List (Notice Nat)) : List Happening :=
  (if s.fresh then [.began now s.key] else []) ++ ns.map (fun n => .changed n.key) ++
    ending now s.key s.run

/-- The keys that a resync of a controller asks for. -/
def listed (o : Operator δ) (i : Nat) : List ObjectKey :=
  match o.controllers[i]? with
  | none => []
  | some c =>
    ((((Cluster.list (.text c.kind)).runOn o.shared.cluster).2.bind Mapper.keysOf).toOption.getD
      []).filter c.covers

/-- The keys that a step asks for. -/
def asks (o : Operator δ) : Move → List ObjectKey
  | .route =>
    match o.feed.take? with
    | none => []
    | some (e, feed) => routed o.ns e (Operator.setFeed feed o)
  | .resync i => listed o i
  | _ => []

/-! ### Following a reconcile -/

/-- What becomes of the controller of a worker as its reconcile of a key has got as far as it
gets. -/
inductive Follows (now : Rat) (c : Controller δ) (j : Nat) (k : ObjectKey) :
    Run (Shared δ) (Except Fault Bool) → Controller δ → Prop
  | asleep (s : Shared δ) (d : Rat)
    (resume : Wake → Shared δ → Run (Shared δ) (Except Fault Bool)) :
    Follows now c j k (.asleep s d resume)
      { c with workers := c.workers.set j (.busy k (now + sleepTime d) resume) }
  | finished (s : Shared δ) (r : Except Fault Bool) (q : WorkQueue ObjectKey Nat) (w : Worker δ) :
    Concludes now k c.queue r q → Worker.key? w = none →
    Follows now c j k (.finished s r)
      { c with
        queue := WorkQueue.done { q with delays := [] } k
        workers := c.workers.set j w }

variable {now : Rat} {o : Operator δ} {c c' : Controller δ} {i j : Nat} {k : ObjectKey}
  {run : Run (Shared δ) (Except Fault Bool)}

/-- A worker that holds the key takes a turn. -/
theorem Follows.turn (h : Follows now c j k run c') (hj : heldBy c.workers j = some k) :
    Turn now c (ending now k run) c' := by
  cases h with
  | asleep s d resume => exact .slept j k _ hj rfl
  | finished s r q w hq hw => exact .ended j k r q w hj hq hw

/-- It does not matter what the worker was before. -/
theorem Follows.of_set (h : Follows now c j k run c') (w : Worker δ) :
    Follows now { c with workers := c.workers.set j w } j k run c' := by
  have hset : ∀ w', (c.workers.set j w).set j w' = c.workers.set j w' :=
    fun w' => List.set_set w
  cases h with
  | asleep s d resume =>
    have h : Follows now { c with workers := c.workers.set j w } j k (.asleep s d resume) _ :=
      .asleep s d resume
    rwa [hset] at h
  | finished s r q w' hq hw' =>
    have h : Follows now { c with workers := c.workers.set j w } j k (.finished s r) _ :=
      .finished s r q w' hq hw'
    rwa [hset] at h

/-- The end of a reconcile as the operator sees it. -/
theorem conclude_operator (hc : o.controllers[i]? = some c) (k : ObjectKey) (r : Except Fault Bool) :
    ∃ q delays, Concludes o.now k c.queue r q ∧ (o.conclude i k r).1 = { o with
      controllers := o.controllers.set i { c with queue := { q with delays := [] } }, delays } := by
  obtain ⟨q, hq, he⟩ := conclude_eq c o.now k r
  unfold Operator.conclude
  rw [hc]
  dsimp only
  rw [modifyController_eq hc, he]
  exact ⟨q, _, hq, rfl⟩

/-- Two changes of one controller are one. -/
theorem modifyController_modifyController (o : Operator δ) (i : Nat)
    (f g : Controller δ → Controller δ) :
    (o.modifyController i f).modifyController i g = o.modifyController i (g ∘ f) := by
  unfold Operator.modifyController
  dsimp only
  rw [List.modify_modify_eq]

/-- Following a reconcile does nothing else. -/
theorem follow_eq (hc : o.controllers[i]? = some c) (j : Nat) (k : ObjectKey)
    (run : Run (Shared δ) (Except Fault Bool)) :
    ∃ c' delays, Follows o.now c j k run c' ∧
      o.follow i j k run =
        { o with shared := run.state, controllers := o.controllers.set i c', delays } := by
  have hi : i < o.controllers.length := (List.getElem?_eq_some_iff.mp hc).1
  cases run with
  | asleep s d resume =>
    refine ⟨_, o.delays, .asleep s d resume, ?_⟩
    have hc' : ({ o with shared := s } : Operator δ).controllers[i]? = some c := hc
    unfold Operator.follow Operator.setWorker
    dsimp only
    rw [modifyController_eq hc']
    rfl
  | finished s r =>
    have hc' : ({ o with shared := s } : Operator δ).controllers[i]? = some c := hc
    obtain ⟨q, delays, hq, he⟩ := conclude_operator hc' k r
    unfold Operator.follow Operator.setWorker
    dsimp only
    rw [modifyController_modifyController, he, modifyController_eq (List.getElem?_set_self hi)]
    dsimp only
    rw [List.set_set]
    -- Whether or not concluding fails, the worker is free afterwards.
    refine ⟨_, delays, .finished s r q _ hq ?_, rfl⟩
    cases (Operator.conclude { o with shared := s } i k r).2 <;> rfl

/-! ### Steps of reconciles -/

/-- One controller takes turns, and the others have nothing to do with what happens. -/
theorem AllTurns.set {h : List Happening} {cs : List (Controller δ)}
    (hkinds : (cs.map (·.kind)).Nodup) (hc : cs[i]? = some c)
    (ht : Turns now c (about (ofKind c.kind) h) c')
    (hours : ∀ e ∈ h, ∀ k, e.queued? = some k → k.kind = .text c.kind) :
    AllTurns now h cs (cs.set i c') where
  length := List.length_set
  turns j d hd := by
    rw [List.getElem?_set]
    split
    · next e =>
      subst e
      rw [hc] at hd
      cases hd
      exact ⟨c', by rw [if_pos (List.getElem?_eq_some_iff.mp hc).1], ht⟩
    · next hne =>
      -- Controllers are told apart by their kinds, so nothing of what happens is about this one.
      have hkind : d.kind ≠ c.kind := by
        intro e
        have hmap : (cs.map (·.kind))[i]? = (cs.map (·.kind))[j]? := by
          rw [List.getElem?_map, List.getElem?_map, hc, hd, Option.map_some, Option.map_some, e]
        have hi : i < (cs.map (·.kind)).length := by
          rw [List.length_map]
          exact (List.getElem?_eq_some_iff.mp hc).1
        exact hne ((List.getElem?_inj hi hkinds).mp hmap)
      have hnone : about (ofKind d.kind) h = [] := by
        unfold about
        rw [List.filter_eq_nil_iff]
        intro e he hany
        obtain ⟨k, hk, hofKind⟩ := (Option.any_eq_true _ _).mp hany
        have hd : k.kind = .text d.kind := by simpa [ofKind] using hofKind
        rw [hours e he k hk] at hd
        exact hkind (Value.text.inj hd).symm
      rw [hnone]
      exact ⟨d, hd, .refl d⟩

/-- A worker that asks for a key gets the first one or none. -/
theorem handout_cases (c : Controller δ) (j : Nat) :
    (∃ waiters k rest, c.queue.queue = k :: rest ∧
      handout c j = (WorkQueue.take { c.queue with waiters } k rest, .key k)) ∨
      ∃ ready waiters a, (∀ k, a ≠ .key k) ∧
        handout c j = ({ c.queue with ready, waiters }, a) := by
  -- What a worker gets does not depend on who waits.
  have hget : ∀ waiters, let q : WorkQueue ObjectKey Nat := { c.queue with waiters }
      (∃ k rest, c.queue.queue = k :: rest ∧ q.get j = (q.take k rest, .key k)) ∨
        ∃ ready waiters' a, (∀ k, a ≠ .key k) ∧
          q.get j = ({ c.queue with ready, waiters := waiters' }, a) := by
    intro waiters
    dsimp only
    unfold WorkQueue.get
    dsimp only
    cases hq : c.queue.queue with
    | cons k rest => exact .inl ⟨k, rest, rfl, rfl⟩
    | nil =>
      refine .inr ?_
      dsimp only
      split
      · exact ⟨c.queue.ready, waiters, .closed, by simp, by rw [← hq]⟩
      · exact ⟨false, _, .wait, by simp, by rw [← hq]⟩
  -- A worker that was woken leaves the waiting ones before it asks.
  unfold handout
  split
  · rcases hget (c.queue.leave j).waiters with ⟨k, rest, hq, h⟩ | ⟨ready, waiters, a, ha, h⟩
    · exact .inl ⟨_, k, rest, hq, h⟩
    · exact .inr ⟨ready, waiters, a, ha, h⟩
  · rcases hget c.queue.waiters with ⟨k, rest, hq, h⟩ | ⟨ready, waiters, a, ha, h⟩
    · exact .inl ⟨_, k, rest, hq, h⟩
    · exact .inr ⟨ready, waiters, a, ha, h⟩

/-- A worker that can go on holds no key. -/
theorem heldBy_of_isRunnable (h : c.isRunnable j = true) :
    heldBy c.workers j = none ∧ j < c.workers.length := by
  unfold Controller.isRunnable at h
  cases hw : c.workers[j]? with
  | none => simp [hw] at h
  | some w =>
    refine ⟨?_, (List.getElem?_eq_some_iff.mp hw).1⟩
    unfold heldBy
    rw [hw] at h ⊢
    cases w with
    | busy => simp at h
    | _ => rfl

/-- A worker that can go on asks for a key. -/
theorem work_eq (hc : o.controllers[i]? = some c) (hr : c.isRunnable j = true) :
    o.work i j = ({ o with
      controllers := o.controllers.set i { c with queue := (handout c j).1 } } : Operator δ).receive
        i j c (handout c j).2 := by
  unfold Operator.work
  rw [hc]
  dsimp only
  rw [if_pos hr]
  show ((o.modifyController i _).receive i j c (handout c j).2) = _
  rw [modifyController_eq hc]
  rfl

/-- The turns of a part of a reconcile are what happens at the queue. -/
theorem about_happenings {s : Stretch δ} {kind : String} (hk : s.key.kind = .text kind) (now : Rat)
    (ns : List (Notice Nat)) : about (ofKind kind) (s.happenings now ns) =
      (if s.fresh then [.began now s.key] else []) ++ ending now s.key s.run := by
  have hbegan : about (ofKind kind) (if s.fresh then [.began now s.key] else []) =
      if s.fresh then [.began now s.key] else [] := by
    cases s.fresh <;> simp [about, Happening.queued?, ofKind, hk]
  have hended : about (ofKind kind) (ending now s.key s.run) = ending now s.key s.run := by
    cases s.run <;> simp [ending, about, Happening.queued?, ofKind, hk]
  unfold Stretch.happenings
  rw [about_append, about_append, about_changed, hbegan, hended, List.append_nil]

/-- A part of a reconcile asks for no key. -/
theorem not_asked_mem_happenings {s : Stretch δ} {now : Rat} {ns : List (Notice Nat)}
    {k : ObjectKey} : .asked k ∉ s.happenings now ns := by
  have hbegan : Happening.asked k ∉ if s.fresh then [.began now s.key] else [] := by
    split <;> simp
  have hended : Happening.asked k ∉ ending now s.key s.run := by
    unfold ending
    split <;> simp
  unfold Stretch.happenings
  simp [List.mem_append, hbegan, hended]

/-- What happens at a queue during a part of a reconcile is about its key. -/
theorem queued?_happenings {s : Stretch δ} {now : Rat} {ns : List (Notice Nat)} {e : Happening}
    {k : ObjectKey} (he : e ∈ s.happenings now ns) (hk : e.queued? = some k) : k = s.key := by
  unfold Stretch.happenings at he
  rcases List.mem_append.mp he with he | he
  · rcases List.mem_append.mp he with he | he
    · split at he
      · rw [List.mem_singleton.mp he] at hk
        exact (Option.some.inj hk).symm
      · cases he
    · obtain ⟨n, -, rfl⟩ := List.mem_map.mp he
      cases hk
  · unfold ending at he
    split at he
    · rw [List.mem_singleton.mp he] at hk
      exact (Option.some.inj hk).symm
    · cases he

/-- Whether every worker of some controllers that holds a key is a worker of other ones or else
satisfies a predicate. -/
def Employs (P : Worker δ → Prop) (cs cs' : List (Controller δ)) : Prop :=
  ∀ c' ∈ cs', ∀ w ∈ c'.workers, Worker.key? w ≠ none → (∃ c ∈ cs, w ∈ c.workers) ∨ P w

/-- One controller gets other workers. -/
theorem Employs.set {P : Worker δ → Prop} {cs : List (Controller δ)} (hc : cs[i]? = some c)
    (h : ∀ w ∈ c'.workers, Worker.key? w ≠ none → w ∈ c.workers ∨ P w) :
    Employs P cs (cs.set i c') := by
  intro d hd w hw hkey
  rcases List.mem_or_eq_of_mem_set hd with hd | rfl
  · exact .inl ⟨d, hd, hw⟩
  · exact (h w hw hkey).imp (fun hw => ⟨c, List.mem_of_getElem? hc, hw⟩) id

/-- A worker that sleeps in a reconcile is one that has got so far. -/
theorem Follows.workers (h : Follows now c j k run c') {w : Worker δ} (hw : w ∈ c'.workers)
    (hkey : Worker.key? w ≠ none) : w ∈ c.workers ∨
      ∃ t s d resume, run = .asleep s d resume ∧ w = .busy k t resume := by
  cases h with
  | asleep s d resume =>
    exact (List.mem_or_eq_of_mem_set hw).imp id fun e => ⟨_, s, d, resume, rfl, e⟩
  | finished s r q w' hq hw' =>
    exact (List.mem_or_eq_of_mem_set hw).imp id fun e => absurd (e ▸ hw') hkey

/-- Whether an operator is another one after a part of a reconcile that gives rise to the given
notices: to what is shared it has done what this part does, and to the controllers nothing but
turns. -/
def Carried (s : Stretch δ) (ns : List (Notice Nat)) (o o' : Operator δ) : Prop :=
  ∃ cs delays, AllTurns o.now (s.happenings o.now ns) o.controllers cs ∧
    Employs (fun w => ∃ t st d resume, s.run = .asleep st d resume ∧ w = .busy s.key t resume)
      o.controllers cs ∧
    o' = { o with shared := s.run.state, controllers := cs, delays }

/-- The key that a worker sleeps on is the one it holds. -/
theorem heldBy_of_busy {workers : List (Worker δ)} {t : Rat}
    {resume : Wake → Shared δ → Run (Shared δ) (Except Fault Bool)}
    (h : workers[j]? = some (.busy k t resume)) : heldBy workers j = some k := by
  unfold heldBy
  rw [h]
  rfl

/-- A worker that can be woken up is busy. -/
theorem busy_of_sleeper? {t : Rat} {resume : Wake → Shared δ → Run (Shared δ) (Except Fault Bool)}
    (h : o.sleeper? i j = some (k, t, resume)) :
    ∃ c, o.controllers[i]? = some c ∧ c.workers[j]? = some (.busy k t resume) := by
  unfold Operator.sleeper? at h
  split at h
  · next hworker =>
    cases h
    exact Option.bind_eq_some_iff.mp hworker
  · cases h

/-- The part of a reconcile that a step carries out is the first one of a key that is queued, or the
next one of a key that a worker sleeps on. -/
theorem stretch?_cases {m : Move} {s : Stretch δ} (h : stretch? o m = some s) :
    (∃ c ∈ o.controllers, s.fresh = true ∧ s.key ∈ c.queue.queue ∧
        s.run = (c.reconcile s.key).run o.shared) ∨
      ∃ c ∈ o.controllers, s.fresh = false ∧ ∃ t resume, .busy s.key t resume ∈ c.workers ∧
        s.run = resume .elapsed o.shared := by
  cases m with
  | work i j =>
    obtain ⟨c, hc, h⟩ := Option.bind_eq_some_iff.mp h
    refine .inl ⟨c, List.mem_of_getElem? hc, ?_⟩
    -- A part begins only if the worker is handed a key.
    rcases handout_cases c j with ⟨waiters, k, rest, hq, he⟩ | ⟨ready, waiters, a, ha, he⟩
    · rw [he] at h
      cases h
      exact ⟨rfl, hq ▸ List.mem_cons_self, rfl⟩
    · rw [he] at h
      cases a with
      | key k => exact absurd rfl (ha k)
      | _ => cases h
  | wake i j =>
    obtain ⟨⟨k, t, resume⟩, hsleeper, rfl⟩ := Option.map_eq_some_iff.mp h
    obtain ⟨c, hc, hw⟩ := busy_of_sleeper? hsleeper
    exact .inr ⟨c, List.mem_of_getElem? hc, rfl, t, resume, List.mem_of_getElem? hw, rfl⟩
  | _ => cases h

/-- Something is known of a key that is queued, and of one that is being processed. -/
theorem Staffed.not_blank_of_queued (hs : Staffed c) (hk : k ∈ c.queue.queue) :
    ¬ (standing c.queue k).Blank := by
  obtain ⟨es, held, ho, -⟩ := hs.orderly
  have hdirty : k ∈ c.queue.dirty := ho.dirty_of_queued k hk
  intro hb
  simp [standing, Standing.Blank, hdirty] at hb

/-- Something is known of a key that is being processed. -/
theorem not_blank_of_processing (hk : k ∈ c.queue.processing) : ¬ (standing c.queue k).Blank := by
  intro hb
  simp [standing, Standing.Blank, hk] at hb

/-- So it is of the kind of the controller. -/
theorem Staffed.kind_of_queued (hs : Staffed c) (hk : k ∈ c.queue.queue) :
    k.kind = .text c.kind :=
  hs.kind_of_not_blank (hs.not_blank_of_queued hk)

/-- A controller processes keys of its own kind. -/
theorem Staffed.kind_of_processing (hs : Staffed c) (hk : k ∈ c.queue.processing) :
    k.kind = .text c.kind :=
  hs.kind_of_not_blank (not_blank_of_processing hk)

/-- A key that a worker sleeps on is being processed. -/
theorem Staffed.processing_of_busy (hs : Staffed c) {t : Rat}
    {resume : Wake → Shared δ → Run (Shared δ) (Except Fault Bool)}
    (hmem : .busy k t resume ∈ c.workers) : k ∈ c.queue.processing := by
  obtain ⟨j, hj⟩ := List.getElem?_of_mem hmem
  exact hs.processing_of_heldBy (heldBy_of_busy hj)

/-- A worker that gets a key begins to reconcile it. -/
theorem carried_work {s : Stretch δ} (hkinds : (o.controllers.map (·.kind)).Nodup)
    (hstaffed : ∀ c ∈ o.controllers, Staffed c) (hcan : o.canStep (.work i j) = true)
    (hs : stretch? o (.work i j) = some s) (ns : List (Notice Nat)) :
    Carried s ns o (o.work i j) := by
  obtain ⟨c, hc, hr⟩ := (Option.any_eq_true _ _).mp hcan
  have hi : i < o.controllers.length := (List.getElem?_eq_some_iff.mp hc).1
  obtain ⟨hnone, hlt⟩ := heldBy_of_isRunnable hr
  simp only [stretch?, hc, Option.bind_some] at hs
  rw [work_eq hc hr]
  rcases handout_cases c j with ⟨waiters, k, rest, hq, h⟩ | ⟨ready, waiters, a, ha, h⟩
  · rw [h] at hs ⊢
    cases hs
    have hkind : k.kind = .text c.kind :=
      (hstaffed c (List.mem_of_getElem? hc)).kind_of_queued (hq ▸ List.mem_cons_self)
    -- The key counts as handed out before it is known how far the worker gets.
    let w : Worker δ := .busy k 0 fun _ s => .finished s (.ok false)
    have hbegan : Turn o.now c _ _ := .began j k rest waiters w hnone hlt hq rfl
    have hheld : heldBy (c.workers.set j w) j = some k := by
      rw [heldBy_set hlt, if_pos rfl]
      rfl
    obtain ⟨c', delays, hfollows, he⟩ := follow_eq
      (o := { o with controllers := (o.controllers.set i
        { c with queue := WorkQueue.take { c.queue with waiters } k rest }) })
      (List.getElem?_set_self hi) j k ((c.reconcile k).run o.shared)
    refine ⟨_, delays, ?_, .set hc fun w => hfollows.workers, he.trans (by rw [List.set_set])⟩
    refine .set hkinds hc ?_ fun e he k' hk' => (queued?_happenings he hk').symm ▸ hkind
    rw [about_happenings hkind]
    exact hbegan.turns.step ((hfollows.of_set w).turn hheld)
  · rw [h] at hs
    cases a with
    | key k => exact absurd rfl (ha k)
    | _ => cases hs

/-- A worker that wakes up goes on with the reconcile of the key that it holds. -/
theorem carried_wake {s : Stretch δ} (hkinds : (o.controllers.map (·.kind)).Nodup)
    (hstaffed : ∀ c ∈ o.controllers, Staffed c) (hs : stretch? o (.wake i j) = some s)
    (ns : List (Notice Nat)) : Carried s ns o (o.resumeWorker i j .elapsed) := by
  obtain ⟨⟨k, t, resume⟩, hsleeper, rfl⟩ := Option.map_eq_some_iff.mp hs
  obtain ⟨c, hc, hworker⟩ := busy_of_sleeper? hsleeper
  have hheld : heldBy c.workers j = some k := heldBy_of_busy hworker
  have hstaffed' := hstaffed c (List.mem_of_getElem? hc)
  have hkind := hstaffed'.kind_of_processing (hstaffed'.processing_of_heldBy hheld)
  obtain ⟨c', delays, hfollows, he⟩ := follow_eq hc j k (resume .elapsed o.shared)
  unfold Operator.resumeWorker
  rw [hsleeper]
  refine ⟨_, delays, ?_, .set hc fun w => hfollows.workers, he⟩
  refine .set hkinds hc ?_ fun e he k' hk' => (queued?_happenings he hk').symm ▸ hkind
  rw [about_happenings hkind]
  exact (hfollows.turn hheld).turns

/-- A step that carries out a part of a reconcile does nothing else. -/
theorem step_stretch {m : Move} {s : Stretch δ} (hkinds : (o.controllers.map (·.kind)).Nodup)
    (hstaffed : ∀ c ∈ o.controllers, Staffed c) (hcan : o.canStep m = true)
    (hs : stretch? o m = some s) (ns : List (Notice Nat)) : Carried s ns o (o.step m) := by
  unfold Operator.step
  rw [if_pos hcan]
  cases m with
  | work i j => exact carried_work hkinds hstaffed hcan hs ns
  | wake i j => exact carried_wake hkinds hstaffed hs ns
  | _ => cases hs

/-! ### All other steps -/

/-- Whether an operator is another one after a step that is no part of a reconcile and asks for some
keys. The feed is left out. -/
structure Passes (ks : List ObjectKey) (o o' : Operator δ) : Prop where
  turns : AllTurns o.now (ks.map .asked) o.controllers o'.controllers
  ns : o'.ns = o.ns
  now : o.now ≤ o'.now
  aside : Aside o.shared.cluster { o'.shared.cluster with feed := o.shared.cluster.feed }
  sheds : Sheds o.shared o'.shared
  employs : Employs (fun _ => False) o.controllers o'.controllers

/-- A step that asks for nothing and changes one controller by a turn. -/
theorem Passes.of_turn (hkinds : (o.controllers.map (·.kind)).Nodup)
    (hc : o.controllers[i]? = some c) (ht : Turn o.now c [] c')
    (hw : ∀ w ∈ c'.workers, Worker.key? w ≠ none → w ∈ c.workers) :
    Passes [] o { o with controllers := o.controllers.set i c' } where
  turns := .set hkinds hc ht.turns fun _ he => nomatch he
  ns := rfl
  now := Rat.le_refl
  aside := ⟨rfl, rfl, rfl, id⟩
  sheds := .refl o.shared
  employs := .set hc fun w hmem hkey => .inl (hw w hmem hkey)

/-- A worker that gets no key is turned away. -/
theorem passes_work (hkinds : (o.controllers.map (·.kind)).Nodup) (hcan : o.canStep (.work i j))
    (hnone : stretch? o (.work i j) = none) :
    Passes [] o (o.work i j) ∧ (o.work i j).feed = o.feed := by
  obtain ⟨c, hc, hr⟩ := (Option.any_eq_true _ _).mp hcan
  have hi : i < o.controllers.length := (List.getElem?_eq_some_iff.mp hc).1
  obtain ⟨hfree, hlt⟩ := heldBy_of_isRunnable hr
  rw [work_eq hc hr]
  simp only [stretch?, hc, Option.bind_some] at hnone
  rcases handout_cases c j with ⟨waiters, k, rest, hq, h⟩ | ⟨ready, waiters, a, ha, h⟩
  · -- With a key, the step would be a part of a reconcile.
    rw [h] at hnone
    cases hnone
  · have hturn : ∀ w : Worker δ, Worker.key? w = none →
        Passes [] o { o with controllers := (o.controllers.set i { c with
          queue := { c.queue with ready, waiters }
          workers := c.workers.set j w }) } :=
      fun w hw => .of_turn hkinds hc (.paused j ready waiters w hfree hlt hw) fun v hv hkey =>
        (List.mem_or_eq_of_mem_set hv).resolve_right fun e => hkey (e ▸ hw)
    rw [h]
    cases a with
    | key k => exact absurd rfl (ha k)
    | closed =>
      unfold Operator.receive Operator.setWorker
      dsimp only
      rw [modifyController_eq (List.getElem?_set_self hi), List.set_set]
      exact ⟨hturn .ended rfl, rfl⟩
    | wait =>
      unfold Operator.receive Operator.setWorker
      dsimp only
      rw [modifyController_eq (List.getElem?_set_self hi), List.set_set]
      exact ⟨hturn .waiting rfl, rfl⟩

/-- The timer that falls due first is one of the timers. -/
theorem mem_of_nextTimer? {κ ω : Type} {q : WorkQueue κ ω} {t : Timer κ}
    (h : q.nextTimer? = some t) : t ∈ q.timers := by
  -- Of the timers that it has seen, the fold keeps one.
  have mem_foldl : ∀ (ts : List (Timer κ)) (t : Timer κ),
      ts.foldl WorkQueue.earlier t = t ∨ ts.foldl WorkQueue.earlier t ∈ ts := by
    intro ts
    induction ts with
    | nil => exact fun t => .inl rfl
    | cons u rest ih =>
      intro t
      have hearlier : WorkQueue.earlier t u = t ∨ WorkQueue.earlier t u = u := by
        unfold WorkQueue.earlier
        split
        · split
          · exact .inr rfl
          · exact .inl rfl
        · exact .inr rfl
        · exact .inl rfl
      rw [List.foldl_cons]
      rcases ih (WorkQueue.earlier t u) with h | h
      · rw [h]
        rcases hearlier with e | e
        · exact .inl e
        · rw [e]
          exact .inr List.mem_cons_self
      · exact .inr (List.mem_cons_of_mem u h)
  unfold WorkQueue.nextTimer? at h
  cases hts : q.timers with
  | nil => simp [hts] at h
  | cons u rest =>
    rw [hts] at h
    rw [← Option.some.inj h]
    rcases mem_foldl rest u with h | h
    · rw [h]
      exact List.mem_cons_self
    · exact List.mem_cons_of_mem u h

/-- A timer that has fallen due fires. -/
theorem passes_fire (hkinds : (o.controllers.map (·.kind)).Nodup) (hcan : o.canStep (.fire i)) :
    Passes [] o (o.fireTimer i) ∧ (o.fireTimer i).feed = o.feed := by
  obtain ⟨due, hdue, hle⟩ := (Option.any_eq_true _ _).mp hcan
  obtain ⟨t, hnext, hdue⟩ := Option.bind_eq_some_iff.mp hdue
  obtain ⟨c, hc, hnext⟩ := Option.bind_eq_some_iff.mp hnext
  unfold Operator.fireTimer
  rw [modifyController_eq hc, hnext]
  exact ⟨.of_turn hkinds hc (.fired t (mem_of_nextTimer? hnext) ⟨due, hdue, by simpa using hle⟩)
    fun _ hw _ => hw, rfl⟩

/-! ### Resyncs -/

/-- The objects that are listed are of the kind that is asked for. -/
theorem kind?_of_mem_list {s : Store Nat} {kind : String} {ms : List Manifest} {m : Manifest}
    (h : (s.list (.text kind)).2 = .ok ms) (hm : m ∈ ms) : m.kind? = some (.text kind) := by
  unfold Store.list at h
  dsimp only at h
  split at h
  · cases h
  · cases h
    have hsame := (List.mem_filter.mp hm).2
    have hnull : (Value.text kind == Value.null) = false := rfl
    rw [hnull, Bool.false_or, Value.same_text_iff] at hsame
    cases hk : m.kind? with
    | none => simp [hk] at hsame
    | some v =>
      rw [hk] at hsame
      exact congrArg some hsame

/-- The keys of objects are those of single objects. -/
theorem exists_of_mem_keysOf {ms : List Manifest} {keys : List ObjectKey} {k : ObjectKey}
    (h : Mapper.keysOf ms = .ok keys) (hk : k ∈ keys) : ∃ m ∈ ms, m.identity? = some k := by
  unfold Mapper.keysOf at h
  -- The keys are read one after the other, and all of them have to be there.
  induction ms generalizing keys with
  | nil =>
    cases h
    cases hk
  | cons m rest ih =>
    rw [List.mapM_cons] at h
    cases hm : m.key? with
    | error f =>
      rw [hm] at h
      cases h
    | ok k' =>
      cases hrest : rest.mapM fun m => m.key? with
      | error f =>
        rw [hm, hrest] at h
        cases h
      | ok keys' =>
        rw [hm, hrest] at h
        cases h
        rcases List.mem_cons.mp hk with rfl | hk
        · refine ⟨m, List.mem_cons_self, ?_⟩
          unfold Manifest.key? at hm
          cases hid : m.identity? with
          | none => simp [hid] at hm
          | some k'' =>
            rw [hid] at hm
            cases hm
            rfl
        · obtain ⟨m', hm', hid⟩ := ih hrest hk
          exact ⟨m', List.mem_cons_of_mem m hm', hid⟩

/-- The keys that a resync asks for are of the kind of the controller. -/
theorem kind_of_mem_listed (hc : o.controllers[i]? = some c) (hk : k ∈ listed o i) :
    k.kind = .text c.kind := by
  unfold listed at hk
  rw [hc] at hk
  have hmem := (List.mem_filter.mp hk).1
  cases hl : ((Cluster.list (.text c.kind)).runOn o.shared.cluster).2 with
  | error f => simp [hl, Except.bind, Except.toOption] at hmem
  | ok ms =>
    cases hkeys : Mapper.keysOf ms with
    | error f => simp [hl, hkeys, Except.bind, Except.toOption] at hmem
    | ok keys =>
      simp only [hl, hkeys, Except.bind, Except.toOption, Option.getD_some] at hmem
      obtain ⟨m, hm, hid⟩ := exists_of_mem_keysOf hkeys hmem
      have hkind := kind?_of_mem_list (s := o.shared.cluster.store) hl hm
      rw [(kind?_of_identity? hid).1] at hkind
      exact Option.some.inj hkind

/-- Keys of its kind can be added to the queue of a controller one after the other. -/
theorem turns_foldl_add (now : Rat) (c : Controller δ) {ks : List ObjectKey}
    (hks : ∀ k ∈ ks, k.kind = .text c.kind) :
    Turns now c (ks.map .asked) { c with queue := ks.foldl (fun q k => q.add k) c.queue } := by
  induction ks generalizing c with
  | nil => exact .refl c
  | cons k rest ih =>
    have hfirst : Turns now c _ _ := (Turn.asked k (hks k List.mem_cons_self)).turns
    exact hfirst.trans (ih { c with queue := c.queue.add k } fun k' hk' =>
      hks k' (List.mem_cons_of_mem k hk'))

/-- A resync adds the keys it lists, if it gets so far. -/
theorem resyncNow_cases (hc : o.controllers[i]? = some c) :
    ∃ r cluster f, Aside o.shared.cluster cluster ∧
      Turns o.now c ((listed o i).map .asked) (f c) ∧ (f c).workers = c.workers ∧
      Operator.resyncNow i o =
        (r, ({ o with shared := { o.shared with cluster } } : Operator δ).modifyController i f) := by
  have hours : ∀ k ∈ listed o i, k.kind = .text c.kind := fun k hk => kind_of_mem_listed hc hk
  have haside := Cluster.looks_list (δ := δ) (.text c.kind) o.shared.cluster
  have hid : ∀ o' : Operator δ, o'.modifyController i id = o' := by
    intro o'
    unfold Operator.modifyController
    rw [List.modify_id]
  unfold listed at hours ⊢
  unfold Operator.resyncNow
  rw [hc] at hours ⊢
  dsimp only at hours ⊢
  cases hl : (Cluster.list (.text c.kind)).runOn o.shared.cluster with
  | mk cluster l =>
    rw [hl] at haside hours
    cases l with
    | error f => exact ⟨.error f, cluster, id, haside, .refl c, rfl, by rw [hid]⟩
    | ok ms =>
      cases hkeys : Mapper.keysOf ms with
      | error f =>
        -- One object without a key, and none is added.
        refine ⟨.error f, cluster, id, haside, ?_, rfl, by simp only [hkeys, hid]⟩
        simp only [Except.bind, hkeys]
        exact .refl c
      | ok keys =>
        simp only [Except.bind, hkeys] at hours ⊢
        exact ⟨.ok (), cluster, fun c => c.addListed keys, haside, turns_foldl_add o.now c hours,
          rfl, rfl⟩

/-- A resync asks for what it lists. -/
theorem passes_resync (hkinds : (o.controllers.map (·.kind)).Nodup) (hcan : o.canStep (.resync i)) :
    Passes (listed o i) o (o.resyncTurn i) ∧ (o.resyncTurn i).feed = o.feed := by
  obtain ⟨due, hdue, -⟩ := (Option.any_eq_true _ _).mp hcan
  obtain ⟨c, hc, -⟩ := Option.bind_eq_some_iff.mp hdue
  obtain ⟨r, cluster, f, haside, hturns, hworkers, he⟩ := resyncNow_cases hc
  have hc' : ({ o with shared := { o.shared with cluster } } : Operator δ).controllers[i]? =
      some c := hc
  -- All keys that are listed are of the kind of this controller.
  have hours : about (ofKind c.kind) ((listed o i).map .asked) = (listed o i).map .asked := by
    unfold about
    rw [List.filter_eq_self]
    intro e he
    obtain ⟨k, hk, rfl⟩ := List.mem_map.mp he
    simp [Happening.queued?, ofKind, kind_of_mem_listed hc hk]
  unfold Operator.resyncTurn
  rw [he]
  dsimp only
  rw [modifyController_modifyController, modifyController_eq hc']
  refine ⟨⟨.set hkinds hc ?_ ?_, rfl, Rat.le_refl, ?_, ⟨rfl, rfl, fun _ => id⟩,
    .set hc fun w hw _ => .inl (hworkers ▸ hw)⟩, haside.feed⟩
  · rw [hours, ← List.append_nil ((listed o i).map Happening.asked)]
    exact hturns.step (.planned _)
  · intro e he k hk
    obtain ⟨k', hk', rfl⟩ := List.mem_map.mp he
    rw [← Option.some.inj hk]
    exact kind_of_mem_listed hc hk'
  · exact ⟨haside.objects, haside.subscriptions, rfl, haside.outages⟩

/-! ### Routing -/

/-- A router takes the first event from the feed and asks for its keys. -/
theorem passes_route {e : WatchEvent} {rest : List WatchEvent} (he : o.feed.events = e :: rest) :
    ∃ o', o.routeNext? = some o' ∧ Passes (asks o .route) o o' ∧
      o'.feed = { events := rest, pending := o.feed.pending - 1 } ∧
      o'.controllers = ((Operator.router o.ns).handle e
        (Operator.setFeed { o.feed with events := rest } o)).controllers := by
  have htake : o.feed.take? = some (e, { o.feed with events := rest }) := by
    unfold Feed.take?
    rw [he]
  obtain ⟨o₁, ⟨shared, rfl, haside, hsheds⟩, cs, hhandled, hturns, hworkers⟩ :=
    handle_cases o.ns e (Operator.setFeed { o.feed with events := rest } o)
  have hfeed : shared.cluster.feed = { o.feed with events := rest } := haside.feed
  have hasks : asks o .route =
      routed o.ns e (Operator.setFeed { o.feed with events := rest } o) := by
    unfold asks
    rw [htake]
  let handled := (Operator.router o.ns).handle e (Operator.setFeed { o.feed with events := rest } o)
  refine ⟨Operator.setFeed handled.feed.finish handled, ?_, ?_, ?_, rfl⟩
  · unfold Operator.routeNext? Router.handleNext
    rw [htake]
  · simp only [handled]
    rw [hhandled, hasks]
    refine ⟨hturns, rfl, Rat.le_refl,
      ⟨haside.objects, haside.subscriptions, rfl, haside.outages⟩,
      ⟨hsheds.lastKnownGood, hsheds.packages, hsheds.tracker⟩, fun c' hc' w hw _ => ?_⟩
    -- The workers are those that were there before, as asking for keys does not concern them.
    have hmem : c'.workers ∈ o.controllers.map (·.workers) :=
      hworkers ▸ List.mem_map.mpr ⟨c', hc', rfl⟩
    obtain ⟨c, hc, he⟩ := List.mem_map.mp hmem
    exact .inl ⟨c, hc, he ▸ hw⟩
  · simp only [handled]
    rw [hhandled]
    show shared.cluster.feed.finish = _
    rw [hfeed]
    rfl

/-- Whether the first event of the feed of an operator has been handled. -/
def Handled (e : WatchEvent) (o o' : Operator δ) : Prop :=
  ∃ rest, o.feed.events = e :: rest ∧
    o'.feed = { events := rest, pending := o.feed.pending - 1 } ∧
    o'.controllers = ((Operator.router o.ns).handle e
      (Operator.setFeed { o.feed with events := rest } o)).controllers

/-- A step that is no part of a reconcile asks for its keys, and the feed stays as it is unless an
event is handled. -/
theorem step_pass {m : Move} (hkinds : (o.controllers.map (·.kind)).Nodup)
    (hcan : o.canStep m = true) (hnone : stretch? o m = none) :
    Passes (asks o m) o (o.step m) ∧
      ((o.step m).feed = o.feed ∨ ∃ e, Handled e o (o.step m)) := by
  unfold Operator.step
  rw [if_pos hcan]
  cases m with
  | route =>
    cases hevents : o.feed.events with
    | nil => simp [Operator.canStep, hevents] at hcan
    | cons e rest =>
      obtain ⟨o', hnext, hpasses, hfeed, hcontrollers⟩ := passes_route hevents
      dsimp only
      rw [hnext]
      exact ⟨hpasses, .inr ⟨e, rest, hevents, hfeed, hcontrollers⟩⟩
  | work i j =>
    obtain ⟨hpasses, hfeed⟩ := passes_work hkinds hcan hnone
    exact ⟨hpasses, .inl hfeed⟩
  -- A worker that is resumed carries out a part of a reconcile.
  | wake i j =>
    obtain ⟨s, hsleeper, -⟩ := (Option.any_eq_true _ _).mp hcan
    simp [stretch?, hsleeper] at hnone
  | fire i =>
    obtain ⟨hpasses, hfeed⟩ := passes_fire hkinds hcan
    exact ⟨hpasses, .inl hfeed⟩
  | resync i =>
    obtain ⟨hpasses, hfeed⟩ := passes_resync hkinds hcan
    exact ⟨hpasses, .inl hfeed⟩
  | tick seconds =>
    refine ⟨⟨.refl o.now o.controllers, rfl, ?_, ⟨rfl, rfl, rfl, id⟩, .refl o.shared,
      fun c hc w hw _ => .inl ⟨c, hc, hw⟩⟩, .inl rfl⟩
    have hle : 0 ≤ seconds := by simpa [Operator.canStep] using hcan
    show o.now ≤ o.now + seconds
    linarith

/-! ### Either way -/

/-- Something is known of a key of which a part of a reconcile is carried out. -/
theorem exists_not_blank_of_stretch? {m : Move} {s : Stretch δ}
    (hstaffed : ∀ c ∈ o.controllers, Staffed c) (hs : stretch? o m = some s) :
    ∃ c ∈ o.controllers, ¬ (standing c.queue s.key).Blank := by
  rcases stretch?_cases hs with ⟨c, hc, -, hqueued, -⟩ | ⟨c, hc, -, t, resume, hmem, -⟩
  · exact ⟨c, hc, (hstaffed c hc).not_blank_of_queued hqueued⟩
  · exact ⟨c, hc, not_blank_of_processing ((hstaffed c hc).processing_of_busy hmem)⟩

/-- Everything that a step does to the controllers, it does by turns, and it asks for no keys but
its own. -/
theorem step_turns {m : Move} (hkinds : (o.controllers.map (·.kind)).Nodup)
    (hstaffed : ∀ c ∈ o.controllers, Staffed c) (hcan : o.canStep m = true) :
    ∃ h, AllTurns o.now h o.controllers (o.step m).controllers ∧
      ∀ k, .asked k ∈ h → k ∈ asks o m := by
  cases hs : stretch? o m with
  | none =>
    refine ⟨_, (step_pass hkinds hcan hs).1.turns, fun k hk => ?_⟩
    obtain ⟨k', hk', he⟩ := List.mem_map.mp hk
    exact Happening.asked.inj he ▸ hk'
  | some s =>
    obtain ⟨cs, delays, hturns, -, he⟩ := step_stretch hkinds hstaffed hcan hs []
    exact ⟨_, by rwa [he], fun k hk => absurd hk not_asked_mem_happenings⟩

/-- The namespace stays, and time does not go back. -/
theorem step_frame {m : Move} (hkinds : (o.controllers.map (·.kind)).Nodup)
    (hstaffed : ∀ c ∈ o.controllers, Staffed c) (hcan : o.canStep m = true) :
    (o.step m).ns = o.ns ∧ o.now ≤ (o.step m).now := by
  cases hs : stretch? o m with
  | none =>
    obtain ⟨hpasses, -⟩ := step_pass hkinds hcan hs
    exact ⟨hpasses.ns, hpasses.now⟩
  | some s =>
    obtain ⟨cs, delays, -, -, he⟩ := step_stretch hkinds hstaffed hcan hs []
    rw [he]
    exact ⟨rfl, Rat.le_refl⟩

/-- A worker that sleeps in a reconcile has slept before, or it has fallen asleep in this step. -/
theorem step_busy_cases {m : Move} (hkinds : (o.controllers.map (·.kind)).Nodup)
    (hstaffed : ∀ c ∈ o.controllers, Staffed c) (hcan : o.canStep m = true) {t : Rat}
    {resume : Wake → Shared δ → Run (Shared δ) (Except Fault Bool)}
    (hc' : c' ∈ (o.step m).controllers) (hmem : .busy k t resume ∈ c'.workers) :
    (∃ c ∈ o.controllers, .busy k t resume ∈ c.workers) ∨
      ∃ s u d, stretch? o m = some s ∧ s.key = k ∧ s.run = .asleep u d resume := by
  have hbusy : Worker.key? (.busy k t resume : Worker δ) ≠ none := by simp [Worker.key?]
  cases hs : stretch? o m with
  | none =>
    have hemploys := (step_pass hkinds hcan hs).1.employs
    exact .inl ((hemploys c' hc' _ hmem hbusy).resolve_right id)
  | some s =>
    obtain ⟨cs, delays, -, hemploys, he⟩ := step_stretch hkinds hstaffed hcan hs []
    rw [he] at hc'
    rcases hemploys c' hc' _ hmem hbusy with hbefore | ⟨t', u, d, resume', hrun, heq⟩
    · exact .inl hbefore
    · cases heq
      exact .inr ⟨s, u, d, rfl, rfl, hrun⟩

end

end CatalogOperator.Proofs.Operation
