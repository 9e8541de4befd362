import CatalogOperator.Operator.Controller
import CatalogOperator.Proofs.WorkQueue.Discipline
import CatalogOperator.Proofs.WorkQueue.Standing

/-!
# `CatalogOperator.Proofs.Operator.Turns`: what happens at a controller

Whatever the operator does, it does to the queue and the workers of a controller only what `Turn`
lists. A turn tells which keys were asked for, and which reconciles began and ended.

* `Happening`: what a history of the operator consists of.
* `Turn`: what can happen at a controller at once, and `Turns`: several turns in a row.
* `Staffed`: the workers hold exactly the keys that are being processed, and all keys are of the kind
  of the controller. `Turn.staffed`: every turn keeps this.
* `Shift`: what a turn can do to the standing of one key. `Turn.shift` says that there is nothing
  else.
-/

set_option autoImplicit false

namespace CatalogOperator.Proofs.Operation

open Queue

/-! ### Happenings -/

/-- What happens to keys while the operator runs, with the time where it matters. -/
inductive Happening where
  /-- The object under a key is put in, replaced or removed. -/
  | changed (key : ObjectKey)
  /-- The controller of its kind is asked to reconcile a key. -/
  | asked (key : ObjectKey)
  /-- A worker begins to reconcile a key. -/
  | began (time : Rat) (key : ObjectKey)
  /-- A reconcile of a key ends with a result. -/
  | ended (time : Rat) (key : ObjectKey) (result : Except Fault Bool)

/-- The key that a queue has to do with. -/
def Happening.queued? : Happening → Option ObjectKey
  | changed _ => none
  | asked k => some k
  | began _ k => some k
  | ended _ k _ => some k

/-- The happenings at queues that are about some of the keys. -/
def about (p : ObjectKey → Bool) (h : List Happening) : List Happening :=
  h.filter fun e => e.queued?.any p

section

variable {p q : ObjectKey → Bool} {h h' : List Happening}

/-- What is about some keys in one history and another one is so in both together. -/
theorem about_append : about p (h ++ h') = about p h ++ about p h' :=
  List.filter_append h h'

/-- Leaving out more keys first makes no difference. -/
theorem about_about (hp : ∀ k, q k = true → p k = true) : about q (about p h) = about q h := by
  unfold about
  rw [List.filter_filter]
  refine List.filter_congr fun e _ => ?_
  cases e.queued? with
  | none => rfl
  | some k =>
    cases hq : q k with
    | false => simp [hq]
    | true => simp [hq, hp k hq]

/-- What is about some keys has happened. -/
theorem mem_of_mem_about {e : Happening} (he : e ∈ about p h) : e ∈ h :=
  List.mem_of_mem_filter he

/-- Changes in the store are nothing that a queue has to do with. -/
theorem about_changed (p : ObjectKey → Bool) (ns : List (Notice Nat)) :
    about p (ns.map fun n => .changed n.key) = [] := by
  simp [about, Happening.queued?]

end

/-- Whether the result of a reconcile has the key tried again. -/
def Retried : Except Fault Bool → Prop
  | .ok again => again = true
  | .error f => f.isDispatchError = false ∧ f.isCancellation = false

/-- The number of failures in a row after one more reconcile. A cancellation does not count. -/
def failuresAfter (n : Nat) : Except Fault Bool → Nat
  | .ok again => if again then n + 1 else 0
  | .error f => if f.isDispatchError then 0 else if f.isCancellation then n else n + 1

/-- A result that has the key tried again is one more failure. -/
theorem failuresAfter_of_retried {r : Except Fault Bool} (h : Retried r) (n : Nat) :
    failuresAfter n r = n + 1 := by
  cases r with
  | ok again => simp [failuresAfter, show again = true from h]
  | error f => simp [failuresAfter, h.1, h.2]

/-! ### Turns -/

section

variable {δ : Type}

/-- The key that a worker holds. -/
def Worker.key? : Worker δ → Option ObjectKey
  | .busy k _ _ => some k
  | _ => none

/-- The key that one of the workers holds. -/
def heldBy (workers : List (Worker δ)) (j : Nat) : Option ObjectKey :=
  (workers[j]?).bind Worker.key?

/-- Exchanging a worker changes the key held in its place only. -/
theorem heldBy_set {workers : List (Worker δ)} {j : Nat} (hj : j < workers.length) (w : Worker δ)
    (i : Nat) : heldBy (workers.set j w) i = if j = i then Worker.key? w else heldBy workers i := by
  unfold heldBy
  rw [List.getElem?_set]
  split
  · rfl
  · rfl

/-- Who holds a key is one of the workers. -/
theorem lt_length_of_heldBy {workers : List (Worker δ)} {j : Nat} {k : ObjectKey}
    (h : heldBy workers j = some k) : j < workers.length := by
  unfold heldBy at h
  cases hw : workers[j]? with
  | none => simp [hw] at h
  | some w => exact (List.getElem?_eq_some_iff.mp hw).1

/-- What the end of a reconcile of a key can do to the queue, before the key is reported. -/
inductive Concludes (now : Rat) (k : ObjectKey) (q : WorkQueue ObjectKey Nat)
    (r : Except Fault Bool) : WorkQueue ObjectKey Nat → Prop
  /-- The failures are forgotten. -/
  | forgets : ¬ Retried r → (∀ n, failuresAfter n r = 0) → Concludes now k q r (q.forget k)
  /-- Nothing is done after a cancellation. -/
  | leaves : ¬ Retried r → (∀ n, failuresAfter n r = n) → Concludes now k q r q
  /-- The key is added after its backoff delay. -/
  | retries : Retried r → Concludes now k q r (q.addRateLimited now k).1

/-- The end of a reconcile changes nothing but the queue. -/
theorem conclude_eq (c : Controller δ) (now : Rat) (k : ObjectKey) (r : Except Fault Bool) :
    ∃ q, Concludes now k c.queue r q ∧ (c.conclude now k r).1 = { c with queue := q } := by
  unfold Controller.conclude
  dsimp only
  cases r with
  | ok again =>
    cases again with
    | false => exact ⟨_, .forgets (by simp [Retried]) fun _ => rfl, rfl⟩
    | true => exact ⟨_, .retries rfl, rfl⟩
  | error f =>
    dsimp only
    split
    · next hf => exact ⟨_, .forgets (by simp [Retried, hf]) (by simp [failuresAfter, hf]), rfl⟩
    · next hf =>
      rw [Bool.not_eq_true] at hf
      split
      · next hc =>
        exact ⟨_, .leaves (by simp [Retried, hc]) (by simp [failuresAfter, hf, hc]), rfl⟩
      · next hc => exact ⟨_, .retries ⟨hf, by simpa using hc⟩, rfl⟩

/-- What can happen at a controller at once. -/
inductive Turn (now : Rat) (c : Controller δ) : List Happening → Controller δ → Prop
  /-- A key of its kind is asked for, and added. -/
  | asked (k : ObjectKey) : k.kind = .text c.kind →
    Turn now c [.asked k] { c with queue := c.queue.add k }
  /-- A key is asked for, but it does not get as far as the queue. -/
  | missed (k : ObjectKey) : Turn now c [.asked k] c
  /-- A timer fires that has fallen due. -/
  | fired (t : Timer ObjectKey) : t ∈ c.queue.timers → (∃ due, t.due = some due ∧ due ≤ now) →
    Turn now c [] { c with queue := c.queue.fire t }
  /-- The next resync is planned. -/
  | planned (due : Option Rat) : Turn now c [] { c with resyncDue := due }
  /-- A worker that holds no key gets none. -/
  | paused (j : Nat) (ready : Bool) (waiters : List (Waiter Nat)) (w : Worker δ) :
    heldBy c.workers j = none → j < c.workers.length → Worker.key? w = none →
    Turn now c [] { c with
      queue := { c.queue with ready, waiters }
      workers := c.workers.set j w }
  /-- A worker that holds no key gets the first one. -/
  | began (j : Nat) (k : ObjectKey) (rest : List ObjectKey) (waiters : List (Waiter Nat))
    (w : Worker δ) : heldBy c.workers j = none → j < c.workers.length →
    c.queue.queue = k :: rest → Worker.key? w = some k →
    Turn now c [.began now k] { c with
      queue := WorkQueue.take { c.queue with waiters } k rest
      workers := c.workers.set j w }
  /-- A worker goes back to sleep in a reconcile. -/
  | slept (j : Nat) (k : ObjectKey) (w : Worker δ) : heldBy c.workers j = some k →
    Worker.key? w = some k → Turn now c [] { c with workers := c.workers.set j w }
  /-- A worker comes to the end of a reconcile. -/
  | ended (j : Nat) (k : ObjectKey) (r : Except Fault Bool) (q : WorkQueue ObjectKey Nat)
    (w : Worker δ) : heldBy c.workers j = some k → Concludes now k c.queue r q →
    Worker.key? w = none →
    Turn now c [.ended now k r] { c with
      queue := WorkQueue.done { q with delays := [] } k
      workers := c.workers.set j w }

/-- Several turns in a row. -/
inductive Turns (now : Rat) : Controller δ → List Happening → Controller δ → Prop
  | refl (c : Controller δ) : Turns now c [] c
  | step {c c' c'' : Controller δ} {ls ls' : List Happening} : Turns now c ls c' →
    Turn now c' ls' c'' → Turns now c (ls ++ ls') c''

variable {now : Rat} {c c' c'' : Controller δ} {ls ls' : List Happening}

/-- One turn is a row of turns. -/
theorem Turn.turns (h : Turn now c ls c') : Turns now c ls c' :=
  .step (.refl c) h

/-- Turns go on with further turns. -/
theorem Turns.trans (h : Turns now c ls c') (h' : Turns now c' ls' c'') :
    Turns now c (ls ++ ls') c'' := by
  induction h' with
  | refl => rwa [List.append_nil]
  | step _ ht ih =>
    rw [← List.append_assoc]
    exact .step ih ht

/-- A controller keeps its kind, the way it reconciles, its namespace and the bounds of its
backoff. -/
structure SameOffice (c c' : Controller δ) : Prop where
  kind : c'.kind = c.kind
  reconcile : c'.reconcile = c.reconcile
  ns : c'.ns = c.ns
  backoff : ∀ n, c'.queue.backoff? n = c.queue.backoff? n

/-- A controller keeps its own office. -/
theorem SameOffice.refl (c : Controller δ) : SameOffice c c :=
  ⟨rfl, rfl, rfl, fun _ => rfl⟩

/-- An office is kept from one controller to the next. -/
theorem SameOffice.trans (h : SameOffice c c') (h' : SameOffice c' c'') : SameOffice c c'' where
  kind := h'.kind.trans h.kind
  reconcile := h'.reconcile.trans h.reconcile
  ns := h'.ns.trans h.ns
  backoff n := (h'.backoff n).trans (h.backoff n)

/-- The end of a reconcile leaves the delays of the queue as they are. -/
theorem Concludes.backoff? {k : ObjectKey} {q q' : WorkQueue ObjectKey Nat}
    {r : Except Fault Bool} (h : Concludes now k q r q') (n : Nat) :
    q'.backoff? n = q.backoff? n := by
  cases h with
  | forgets => rfl
  | leaves => rfl
  | retries => exact addRateLimited_backoff? q now k n

/-- A turn leaves a controller its office. -/
theorem Turn.sameOffice (h : Turn now c ls c') : SameOffice c c' := by
  cases h with
  | asked k => exact ⟨rfl, rfl, rfl, add_backoff? c.queue k⟩
  | fired t => exact ⟨rfl, rfl, rfl, add_backoff? _ t.key⟩
  | ended j k r q w _ hc _ =>
    exact ⟨rfl, rfl, rfl, fun n => (done_backoff? _ k n).trans (hc.backoff? n)⟩
  | _ => exact ⟨rfl, rfl, rfl, fun _ => rfl⟩

/-- Turns leave a controller its office. -/
theorem Turns.sameOffice (h : Turns now c ls c') : SameOffice c c' := by
  induction h with
  | refl => exact .refl c
  | step _ ht ih => exact ih.trans ht.sameOffice

/-! ### The workers and the queue -/

/-- Whether the queue of a controller is open and in order, its workers hold exactly the keys that
are being processed, and nothing is known of keys of another kind. -/
structure Staffed (c : Controller δ) : Prop where
  isOpen : c.queue.closed = false
  orderly : ∃ (es : List (QueueEvent ObjectKey Nat)) (held : List (Nat × ObjectKey)),
    Orderly es (Desk.containers ⟨c.queue, held⟩) ∧
      ∀ j k, (j, k) ∈ held ↔ heldBy c.workers j = some k
  foreign : ∀ k, k.kind ≠ .text c.kind → (standing c.queue k).Blank

/-- A key that a worker holds is being processed. -/
theorem Staffed.processing_of_heldBy (h : Staffed c) {j : Nat} {k : ObjectKey}
    (hj : heldBy c.workers j = some k) : k ∈ c.queue.processing := by
  obtain ⟨es, held, ho, hheld⟩ := h.orderly
  exact ho.held_perm.mem_iff.mpr (List.mem_map.mpr ⟨(j, k), (hheld j k).mpr hj, rfl⟩)

/-- A queue with nothing queued and nothing being processed has no dirty keys. -/
theorem Staffed.not_dirty_of_isIdle (h : Staffed c) (hi : c.isIdle = true) (k : ObjectKey) :
    k ∉ c.queue.dirty := by
  obtain ⟨es, held, ho, -⟩ := h.orderly
  simp only [Controller.isIdle, Bool.and_eq_true, List.isEmpty_iff] at hi
  intro hk
  -- A dirty key is queued, or it is being processed and will be queued when it is done.
  rcases ho.placed k hk with hq | hp
  · rw [show (Desk.containers ⟨c.queue, held⟩).queue = [] from hi.1] at hq
    cases hq
  · rw [show (Desk.containers ⟨c.queue, held⟩).processing = [] from hi.2] at hp
    cases hp

/-- Of a key of which something is known the kind is that of the controller. -/
theorem Staffed.kind_of_not_blank (h : Staffed c) {k : ObjectKey}
    (hk : ¬ (standing c.queue k).Blank) : k.kind = .text c.kind :=
  Classical.byContradiction fun hne => hk (h.foreign k hne)

/-- The end of a reconcile leaves the keys that are being processed, its own one included. -/
theorem Concludes.processing {k : ObjectKey} {q q' : WorkQueue ObjectKey Nat}
    {r : Except Fault Bool} (h : Concludes now k q r q') : q'.processing = q.processing := by
  cases h with
  | forgets => rfl
  | leaves => rfl
  | retries =>
    unfold WorkQueue.addRateLimited WorkQueue.addAfter
    dsimp only
    split
    · rfl
    · split
      · rfl
      · split
        · exact add_processing _ k
        · split <;> rfl

/-! ### The standing of one key -/

/-- What the end of a reconcile of a key can do to its standing, given the delay of a failure. -/
inductive Ending (now : Rat) (k : ObjectKey) (delay : Option Number) (r : Except Fault Bool)
    (s : Standing ObjectKey) : Standing ObjectKey → Prop
  | counted : ¬ Retried r →
    Ending now k delay r s { s with failures := failuresAfter s.failures r }
  | postponed {s' : Standing ObjectKey} : Retried r → Postponement now k delay s s' →
    Ending now k delay r s s'

/-- What a turn can do to the standing of a key, with what of it is about the key. -/
inductive Shift (now : Rat) (backoff : Nat → Option Number) (k : ObjectKey)
    (s : Standing ObjectKey) : List Happening → Standing ObjectKey → Prop
  | none : Shift now backoff k s [] s
  | missed : Shift now backoff k s [.asked k] s
  | asked : Shift now backoff k s [.asked k] { s with dirty := true }
  | fired (t : Timer ObjectKey) : t ∈ s.timers → (∃ due, t.due = some due ∧ due ≤ now) →
    Shift now backoff k s [] { s with dirty := true, timers := s.timers.erase t }
  | began : s.dirty = true → s.processing = false →
    Shift now backoff k s [.began now k] { s with dirty := false, processing := true }
  | ended (r : Except Fault Bool) {s' : Standing ObjectKey} : s.processing = true →
    Ending now k (backoff s.failures) r s s' →
    Shift now backoff k s [.ended now k r] { s' with processing := false }

/-- Several shifts in a row. -/
inductive Shifts (now : Rat) (backoff : Nat → Option Number) (k : ObjectKey) :
    Standing ObjectKey → List Happening → Standing ObjectKey → Prop
  | refl (s : Standing ObjectKey) : Shifts now backoff k s [] s
  | step {s s' s'' : Standing ObjectKey} {ls ls' : List Happening} :
    Shifts now backoff k s ls s' → Shift now backoff k s' ls' s'' →
    Shifts now backoff k s (ls ++ ls') s''

/-- The end of a reconcile of one key leaves all others as they are. -/
theorem Concludes.standing_of_ne {k k' : ObjectKey} {q q' : WorkQueue ObjectKey Nat}
    {r : Except Fault Bool} (ho : q.closed = false) (h : Concludes now k' q r q') (hk : k' ≠ k) :
    standing q' k = standing q k := by
  cases h with
  | forgets => rw [standing_forget, if_neg hk]
  | leaves => rfl
  | retries => exact standing_addRateLimited_of_ne ho now hk

/-- The end of a reconcile does to the standing of its key what the result asks for. -/
theorem Concludes.ending {k : ObjectKey} {q q' : WorkQueue ObjectKey Nat}
    {r : Except Fault Bool} (ho : q.closed = false) (h : Concludes now k q r q') :
    Ending now k (q.backoff? (standing q k).failures) r (standing q k) (standing q' k) := by
  cases h with
  | forgets hr hn =>
    rw [standing_forget, if_pos rfl, ← hn (standing q k).failures]
    exact .counted hr
  | leaves hr hn =>
    have hcounted : Ending now k (q.backoff? (standing q k).failures) r (standing q k)
        { standing q k with failures := failuresAfter (standing q k).failures r } := .counted hr
    rw [hn] at hcounted
    exact hcounted
  | retries hr => exact .postponed hr (standing_addRateLimited ho now k)

/-- A turn that is about one key leaves all others as they are, and a key that is concerned shifts
in one of the ways listed. -/
theorem Turn.shift (h : Staffed c) (ht : Turn now c ls c') (k : ObjectKey) :
    Shift now c.queue.backoff? k (standing c.queue k) (about (· = k) ls)
      (standing c'.queue k) := by
  have about_of_eq : ∀ {e : Happening}, e.queued? = some k → about (· = k) [e] = [e] := by
    intro e he
    simp [about, he]
  have about_of_ne : ∀ {e : Happening} {k' : ObjectKey}, e.queued? = some k' → k' ≠ k →
      about (· = k) [e] = [] := by
    intro e k' he hne
    simp [about, he, hne]
  obtain ⟨es, held, ho, hheld⟩ := h.orderly
  cases ht with
  | asked k' =>
    rw [standing_add h.isOpen]
    by_cases hk : k' = k
    · rw [if_pos hk, about_of_eq (by simp [Happening.queued?, hk]), hk]
      exact .asked
    · rw [if_neg hk, about_of_ne rfl hk]
      exact .none
  | missed k' =>
    by_cases hk : k' = k
    · rw [about_of_eq (by simp [Happening.queued?, hk]), hk]
      exact .missed
    · rw [about_of_ne rfl hk]
      exact .none
  | fired t hmem hdue =>
    rw [standing_fire h.isOpen]
    by_cases hk : t.key = k
    · rw [if_pos hk]
      exact .fired t (by simp [standing, hmem, hk]) hdue
    · rw [if_neg hk]
      exact .none
  | planned => exact .none
  | paused => exact .none
  | began j k' rest waiters w _ _ hq _ =>
    have hdirty : k' ∈ c.queue.dirty := ho.dirty_of_queued k' (by simp [Desk.containers, hq])
    have hnot : k' ∉ c.queue.processing := ho.apart k' (by simp [Desk.containers, hq])
    have htake := standing_take (q := { c.queue with waiters }) ho.dirty_nodup k' rest k
    rw [htake]
    by_cases hk : k' = k
    · rw [if_pos hk, about_of_eq (by simp [Happening.queued?, hk]), hk]
      subst hk
      exact .began (by simpa [standing] using hdirty) (by simpa [standing] using hnot)
    · rw [if_neg hk, about_of_ne rfl hk]
      exact .none
  | slept => exact .none
  | ended j k' r q w hj hc _ =>
    have hprocessing := h.processing_of_heldBy hj
    have hnodup : q.processing.Nodup := hc.processing ▸ ho.processing_nodup
    -- The delays that a queue remembers are none of what it holds about a key.
    have hdelays : standing { q with delays := [] } k = standing q k := rfl
    rw [standing_done (q := { q with delays := [] }) hnodup, hdelays]
    by_cases hk : k' = k
    · rw [if_pos hk, about_of_eq (by simp [Happening.queued?, hk]), hk]
      subst hk
      exact .ended r (by simpa [standing] using hprocessing) (hc.ending h.isOpen)
    · rw [if_neg hk, about_of_ne rfl hk, hc.standing_of_ne h.isOpen hk]
      exact .none

/-- A key of which nothing is known stays so, unless it is asked for. -/
theorem Shift.blank {backoff : Nat → Option Number} {k : ObjectKey} {s s' : Standing ObjectKey}
    (h : Shift now backoff k s ls s') (hs : s.Blank) (hasked : .asked k ∉ ls) : s'.Blank := by
  obtain ⟨hdirty, hprocessing, htimers⟩ := hs
  cases h with
  | none => exact ⟨hdirty, hprocessing, htimers⟩
  | missed => exact ⟨hdirty, hprocessing, htimers⟩
  | asked => exact absurd (List.mem_singleton_self _) hasked
  | fired t hmem => simp [htimers] at hmem
  | began h => simp [hdirty] at h
  | ended r h => simp [hprocessing] at h

/-! ### Every turn keeps the controller staffed -/

/-- Nothing becomes known of a key of another kind. -/
theorem Turn.foreign (h : Staffed c) (ht : Turn now c ls c') {k : ObjectKey}
    (hk : k.kind ≠ .text c.kind) : (standing c'.queue k).Blank := by
  have hblank := h.foreign k hk
  have hshift := ht.shift h k
  cases ht with
  | asked k' hkind =>
    have hne : k' ≠ k := fun e => hk (e ▸ hkind)
    rwa [standing_add h.isOpen, if_neg hne]
  | missed => exact hblank
  | _ => exact hshift.blank hblank (by simp [about])

/-- The conclusion of a reconcile is a change of the containers of its queue. -/
theorem Concludes.change {k : ObjectKey} {q q' : WorkQueue ObjectKey Nat} {r : Except Fault Bool}
    (ho : q.closed = false) (h : Concludes now k q r q') (held : List (Nat × ObjectKey)) :
    q'.closed = false ∧ ∃ es, Change (Desk.containers ⟨q, held⟩) es (Desk.containers ⟨q', held⟩) := by
  cases h with
  | forgets => exact ⟨ho, [], .quiet⟩
  | leaves => exact ⟨ho, [], .quiet⟩
  | retries =>
    have hopen : (q.addRateLimited now k).1.closed = false := by rwa [addRateLimited_closed]
    exact ⟨hopen, _, Desk.step_change (d := ⟨q, held⟩) (r := .addRateLimited now k) trivial hopen⟩

/-- A turn does not close the queue. -/
theorem Turn.isOpen (h : Staffed c) (ht : Turn now c ls c') : c'.queue.closed = false := by
  have ho := h.isOpen
  cases ht with
  | asked k => rwa [add_closed]
  | fired t => exact (add_closed _ t.key).trans ho
  | ended j k r q w hj hc =>
    exact (done_closed _ k).trans (hc.change ho []).1
  | _ => exact ho

/-- Every turn keeps a controller staffed. -/
theorem Turn.staffed (h : Staffed c) (ht : Turn now c ls c') : Staffed c' := by
  refine ⟨ht.isOpen h, ?_, fun k hk => ht.foreign h (ht.sameOffice.kind ▸ hk)⟩
  obtain ⟨es, held, ho, hheld⟩ := h.orderly
  cases ht with
  | asked k => exact ⟨_, held, ho.change (Desk.add_change (d := ⟨c.queue, held⟩) h.isOpen k), hheld⟩
  | missed => exact ⟨es, held, ho, hheld⟩
  | fired t hmem =>
    have hopen : (c.queue.fire t).closed = false := (add_closed _ t.key).trans h.isOpen
    exact ⟨_, held, ho.change (Desk.step_change (d := ⟨c.queue, held⟩) (r := .fire t) hmem hopen),
      hheld⟩
  | planned => exact ⟨es, held, ho, hheld⟩
  | paused j ready waiters w hj hlt hw =>
    refine ⟨es, held, ho, fun i k => ?_⟩
    rw [hheld, heldBy_set hlt, hw]
    split
    · next e => rw [← e, hj]
    · rfl
  | began j k rest waiters w hj hlt hq hw =>
    -- The key moves from the queue to those that are held.
    have hchange := Change.handed (c := Desk.containers ⟨c.queue, held⟩) j k rest hq
    refine ⟨_, _, ho.change hchange, fun i k' => ?_⟩
    show (i, k') ∈ held ++ [(j, k)] ↔ _
    rw [List.mem_append, hheld, heldBy_set hlt, hw, List.mem_singleton, Prod.mk.injEq]
    split
    · next e => simp [← e, hj, eq_comm]
    · next e => simp [Ne.symm e]
  | slept j k w hj hw =>
    refine ⟨es, held, ho, fun i k' => ?_⟩
    rw [hheld, heldBy_set (lt_length_of_heldBy hj), hw]
    split
    · next e => rw [← e, hj]
    · rfl
  | ended j k r q w hj hc hw =>
    -- Two changes one after the other: the failures are accounted for, then the key is given back.
    obtain ⟨hopen, es', hchange⟩ := hc.change h.isOpen held
    have hmem : (j, k) ∈ held := (hheld j k).mpr hj
    have hdone := Desk.step_change (d := ⟨{ q with delays := [] }, held⟩) (r := .done j k) hmem
      ((done_closed _ k).trans hopen)
    refine ⟨_, _, (ho.change hchange).change hdone, fun i k' => ?_⟩
    -- A worker holds at most one key, so what is left of its entries is none.
    have hnodup : held.Nodup :=
      List.Nodup.of_map Prod.snd (ho.held_perm.nodup_iff.mp ho.processing_nodup)
    show (i, k') ∈ held.erase (j, k) ↔ _
    rw [hnodup.mem_erase_iff, hheld, heldBy_set (lt_length_of_heldBy hj), hw]
    split
    · next e =>
      subst e
      simp [hj, eq_comm]
    · next e => simp [Ne.symm e]

/-- Turns keep a controller in order. -/
theorem Turns.staffed (h : Staffed c) (ht : Turns now c ls c') : Staffed c' := by
  induction ht with
  | refl => exact h
  | step _ ht ih => exact ht.staffed ih

/-- Over several turns, the standing of a key changes by several shifts. -/
theorem Turns.shifts (h : Staffed c) (ht : Turns now c ls c') (k : ObjectKey) :
    Shifts now c.queue.backoff? k (standing c.queue k) (about (· = k) ls)
      (standing c'.queue k) := by
  induction ht with
  | refl => exact .refl _
  | step hts ht ih =>
    have hshift := ht.shift (hts.staffed h) k
    rw [funext hts.sameOffice.backoff] at hshift
    rw [about_append]
    exact .step ih hshift

end

end CatalogOperator.Proofs.Operation
