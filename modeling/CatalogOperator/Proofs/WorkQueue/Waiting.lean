import CatalogOperator.Proofs.WorkQueue.Desk

/-!
# `CatalogOperator.Proofs.WorkQueue.Waiting`: no wake-up is lost, and shutdown releases everybody

A worker that finds the queue empty turns it not ready and waits. All waiting workers are woken when
the queue turns ready, but each goes on in its own time: meanwhile another one may take the key, turn
the queue not ready again and wait, or give up.

`Desk.Uses` are the runs of a desk whose clients keep fewer rules than those of `Desk.Run`: any key
may be reported as processed, whether or not a worker holds it, and a timer may fire at any time.

* `Attentive`: what the ready flag says about the queue and about those who wait. `Attentive.step`
  keeps it over any request, `attentive_of_uses` over a run.
* `Released`: a queue that was shut down. `Released.step` says what a request still can do to it.
* `waiting_discipline`: a worker waits only while there is nothing to do. After shutdown no key is
  handed out, and everybody who waits or asks is turned away.
-/

set_option autoImplicit false

namespace CatalogOperator.Proofs.Queue

variable {κ ω : Type}

/-! ### Runs with fewer rules -/

namespace Desk

variable [DecidableEq κ] [DecidableEq ω]

/-- Whether a request can be made at all: a worker asks for one key at a time, only a woken worker
goes on, and only a waiting one gives up. -/
def Admits (d : Desk κ ω) : Request κ ω → Prop
  | .get w => ∀ x ∈ d.queue.waiters, x.name ≠ w
  | .resume w => d.queue.isWoken w = true
  | .leave w => ∃ x ∈ d.queue.waiters, x.name = w
  | _ => True

/-- Any requests in any order, with their events in order. -/
inductive Uses : Desk κ ω → List (QueueEvent κ ω) → Desk κ ω → Prop where
  | refl (d : Desk κ ω) : Uses d [] d
  | step {d d' : Desk κ ω} {es : List (QueueEvent κ ω)} (r : Request κ ω) :
    Uses d es d' → d'.Admits r → Uses d (es ++ (d'.step r).2) (d'.step r).1

/-- An endless run with fewer rules. -/
structure Endless (d : Desk κ ω) where
  desk : Nat → Desk κ ω
  request : Nat → Request κ ω
  desk_zero : desk 0 = d
  admits : ∀ n, (desk n).Admits (request n)
  desk_succ : ∀ n, desk (n + 1) = ((desk n).step (request n)).1

/-- A worker that was woken goes on or gives up some time. -/
def Endless.GoesOn {d : Desk κ ω} (s : Endless d) : Prop :=
  ∀ n, ∀ x ∈ (s.desk n).queue.waiters, x.woken = true →
    ∃ m, n ≤ m ∧ (s.request m = .resume x.name ∨ s.request m = .leave x.name)

end Desk

/-! ### The ready flag -/

/-- What the ready flag stands for: while it is up everybody who waits has been woken, and while it
is down nothing is queued and the queue has not been shut down. -/
structure Attentive (q : WorkQueue κ ω) : Prop where
  woken : q.ready = true → ∀ x ∈ q.waiters, x.woken = true
  idle : q.ready = false → q.queue = [] ∧ q.closed = false
  shut : q.closed = true → q.queue = []

/-- A new queue is attentive: nothing is queued and nobody waits. -/
theorem attentive_fresh (baseDelay maxDelay : Number) :
    Attentive (Desk.fresh baseDelay maxDelay : Desk κ ω).queue where
  woken := fun _ _ hx => nomatch hx
  idle := fun _ => ⟨rfl, rfl⟩
  shut := fun _ => rfl

/-- Turning ready turns the queue ready. -/
@[simp] theorem signal_ready (q : WorkQueue κ ω) : q.signal.ready = true := by
  unfold WorkQueue.signal
  split
  · assumption
  · rfl

/-- After a signal everybody is awake: a queue that was ready has woken them before. -/
theorem woken_signal {q : WorkQueue κ ω} (hw : q.ready = true → ∀ x ∈ q.waiters, x.woken = true) :
    ∀ x ∈ q.signal.waiters, x.woken = true := by
  intro x hx
  by_cases hr : q.ready = true
  · rw [WorkQueue.signal, if_pos hr] at hx
    exact hw hr x hx
  · rw [WorkQueue.signal, if_neg hr] at hx
    obtain ⟨y, -, rfl⟩ := List.mem_map.mp hx
    rfl

/-- A queue that has just been signalled is attentive, whatever was put into it. -/
theorem attentive_signal {q : WorkQueue κ ω}
    (hw : q.ready = true → ∀ x ∈ q.waiters, x.woken = true)
    (hc : q.closed = true → q.queue = []) : Attentive q.signal where
  woken := fun _ => woken_signal hw
  idle := fun hr => by
    rw [signal_ready] at hr
    cases hr
  shut := fun h => by
    rw [signal_closed] at h
    rw [signal_queue, hc h]

namespace Attentive

variable {q : WorkQueue κ ω}

/-- A queue stays attentive when a key is queued, as that wakes everybody who waits. -/
theorem push (h : Attentive q) (ho : q.closed = false) (k : κ) : Attentive (q.push k) := by
  refine attentive_signal h.woken fun hc => ?_
  have hc' : q.closed = true := hc
  rw [ho] at hc'
  cases hc'

/-- It stays attentive when it is shut down. -/
theorem shutdown (h : Attentive q) : Attentive q.shutdown :=
  attentive_signal h.woken fun _ => rfl

variable [DecidableEq κ]

/-- It stays attentive when a key is added. -/
theorem add (h : Attentive q) (k : κ) : Attentive (q.add k) := by
  unfold WorkQueue.add
  dsimp only
  split
  · exact h
  · next hn =>
    have ho : q.closed = false := by
      cases hc : q.closed with
      | true => simp [hc] at hn
      | false => rfl
    have hmarked : Attentive { q with dirty := q.dirty ++ [k] } := ⟨h.woken, h.idle, h.shut⟩
    split
    · exact hmarked
    · exact hmarked.push ho k

/-- It stays attentive when a key is reported. -/
theorem done (h : Attentive q) (k : κ) : Attentive (q.done k) := by
  unfold WorkQueue.done
  dsimp only
  have herased : Attentive { q with processing := q.processing.erase k } :=
    ⟨h.woken, h.idle, h.shut⟩
  split
  · next hn =>
    have ho : q.closed = false := by
      cases hc : q.closed with
      | true => simp [hc] at hn
      | false => rfl
    exact herased.push ho k
  · exact herased

/-- It stays attentive when a key is added later. -/
theorem addAfter (h : Attentive q) (now : Rat) (k : κ) (delay : Number) :
    Attentive (q.addAfter now k delay).1 := by
  unfold WorkQueue.addAfter
  split
  · exact h
  · split
    · exact h.add k
    · split
      · exact h
      · exact ⟨h.woken, h.idle, h.shut⟩

/-- It stays attentive when a failure is recorded. -/
theorem addRateLimited (h : Attentive q) (now : Rat) (k : κ) :
    Attentive (q.addRateLimited now k).1 := by
  have hcounted : ∀ failures, Attentive { q with failures := failures } := fun _ =>
    ⟨h.woken, h.idle, h.shut⟩
  unfold WorkQueue.addRateLimited
  dsimp only
  split
  · exact hcounted _
  · exact (hcounted _).addAfter now k _

/-- A worker that asks either takes the first key and leaves the flag up, or finds nothing: then it
lowers the flag, and is itself the one who waits. -/
theorem get (h : Attentive q) (w : ω) : Attentive (q.get w).1 := by
  unfold WorkQueue.get
  split
  · next k rest hq =>
    -- With a key in it the queue was neither idle nor shut down.
    have hup : q.ready = true := by
      cases hr : q.ready with
      | true => rfl
      | false => simp [(h.idle hr).1] at hq
    have ho : ¬ q.closed = true := fun hc => by simp [h.shut hc] at hq
    exact {
      woken := fun _ => h.woken hup
      idle := fun hr => by
        have hr' : q.ready = false := hr
        rw [hup] at hr'
        cases hr'
      shut := fun hc => absurd hc ho }
  · next hq =>
    split
    · exact h
    · next ho =>
      exact {
        woken := fun hr => nomatch hr
        idle := fun _ => ⟨hq, by simpa using ho⟩
        shut := fun _ => hq }

omit [DecidableEq κ] in
/-- It stays attentive when a worker stops waiting. -/
theorem leave [DecidableEq ω] (h : Attentive q) (w : ω) : Attentive (q.leave w) where
  woken := fun hr x hx => h.woken hr x (List.mem_of_mem_eraseP hx)
  idle := h.idle
  shut := h.shut

omit [DecidableEq κ] in
/-- A worker that waits and has not been woken has nothing to do. -/
theorem nothing_to_do (h : Attentive q) {x : Waiter ω} (hx : x ∈ q.waiters)
    (hn : x.woken = false) : q.queue = [] ∧ q.closed = false := by
  apply h.idle
  cases hr : q.ready with
  | false => rfl
  | true =>
    have hy := h.woken hr x hx
    rw [hn] at hy
    cases hy

end Attentive

/-- The queue of a desk is the one that has answered. -/
theorem receive_queue (d : Desk κ ω) (w : ω) (answer : WorkQueue κ ω × Handout κ) :
    (d.receive w answer).1.queue = answer.1 := by
  obtain ⟨q, a⟩ := answer
  cases a <;> rfl

section Steps

variable [DecidableEq κ] [DecidableEq ω]

/-- Whatever is requested, admitted or not, the ready flag keeps its meaning. -/
theorem Attentive.step {d : Desk κ ω} (h : Attentive d.queue) (r : Request κ ω) :
    Attentive (d.step r).1.queue := by
  cases r with
  | add k => exact h.add k
  | addAfter now k delay => exact h.addAfter now k delay
  | addRateLimited now k => exact h.addRateLimited now k
  | forget k => exact ⟨h.woken, h.idle, h.shut⟩
  -- A timer that fires is gone, and then its key is added like any other.
  | fire t =>
    have herased : Attentive { d.queue with timers := d.queue.timers.erase t } :=
      ⟨h.woken, h.idle, h.shut⟩
    exact herased.add t.key
  | get w =>
    show Attentive (d.receive w (d.queue.get w)).1.queue
    rw [receive_queue]
    exact h.get w
  | resume w =>
    show Attentive (d.receive w (d.queue.resume w)).1.queue
    rw [receive_queue]
    exact (h.leave w).get w
  | leave w => exact h.leave w
  | done w k => exact h.done k
  | shutdown => exact h.shutdown

/-- A queue is attentive all along, whoever gives up. -/
theorem attentive_of_uses {baseDelay maxDelay : Number} {es : List (QueueEvent κ ω)}
    {d : Desk κ ω} (hrun : Desk.Uses (.fresh baseDelay maxDelay) es d) : Attentive d.queue := by
  induction hrun with
  | refl => exact attentive_fresh baseDelay maxDelay
  | step r _ _ ih => exact ih.step r

end Steps

/-! ### After shutdown -/

/-- A queue that was shut down: it is empty, and everybody who waits has been woken. -/
structure Released (q : WorkQueue κ ω) : Prop where
  closed : q.closed = true
  empty : q.queue = []
  up : q.ready = true
  woken : ∀ x ∈ q.waiters, x.woken = true

/-- An attentive queue that is closed has released its workers. -/
theorem Attentive.released {q : WorkQueue κ ω} (h : Attentive q) (hc : q.closed = true) :
    Released q := by
  have hup : q.ready = true := by
    cases hr : q.ready with
    | true => rfl
    | false =>
      have ho := (h.idle hr).2
      rw [hc] at ho
      cases ho
  exact ⟨hc, h.shut hc, hup, h.woken hup⟩

section Closed

variable {q : WorkQueue κ ω} [DecidableEq κ]

/-- A closed queue takes no key. -/
theorem add_of_closed (hc : q.closed = true) (k : κ) : q.add k = q := by
  simp [WorkQueue.add, hc]

/-- A closed queue takes no key for later. -/
theorem addAfter_of_closed (hc : q.closed = true) (now : Rat) (k : κ) (delay : Number) :
    q.addAfter now k delay = (q, .ok ()) := by
  simp [WorkQueue.addAfter, hc]

/-- A closed queue does not queue a key that is reported. -/
theorem done_of_closed (hc : q.closed = true) (k : κ) :
    q.done k = { q with processing := q.processing.erase k } := by
  simp [WorkQueue.done, hc]

/-- Who asks a released queue is told that it is closed. -/
theorem Released.get_eq (h : Released q) (w : ω) : q.get w = (q, .closed) := by
  simp [WorkQueue.get, h.empty, h.closed]

end Closed

variable [DecidableEq ω]

/-- Those who wait after a request to a queue that was shut down. -/
def remaining (ws : List (Waiter ω)) : Request κ ω → List (Waiter ω)
  | .resume w => ws.eraseP fun x => x.name == w
  | .leave w => ws.eraseP fun x => x.name == w
  | _ => ws

/-- Nobody begins to wait at a queue that was shut down. -/
theorem remaining_sublist (ws : List (Waiter ω)) (r : Request κ ω) :
    (remaining ws r).Sublist ws := by
  cases r with
  | resume w => exact List.eraseP_sublist
  | leave w => exact List.eraseP_sublist
  | _ => exact List.Sublist.refl ws

namespace Released

variable {q : WorkQueue κ ω} {d : Desk κ ω}

/-- A released queue stays so when a worker stops waiting. -/
theorem leave (h : Released q) (w : ω) : Released (q.leave w) :=
  ⟨h.closed, h.empty, h.up, fun x hx => h.woken x (List.mem_of_mem_eraseP hx)⟩

/-- Everybody who waits can go on. -/
theorem isWoken (h : Released q) {x : Waiter ω} (hx : x ∈ q.waiters) : q.isWoken x.name = true := by
  rw [WorkQueue.isWoken, List.any_eq_true]
  exact ⟨x, hx, by simp [h.woken x hx]⟩

variable [DecidableEq κ]

/-- A woken worker that asks a released queue again is told that it is closed. -/
theorem resume_eq (h : Released q) (w : ω) : q.resume w = (q.leave w, .closed) :=
  (h.leave w).get_eq w

/-- All that a request does to a queue that was shut down: nothing is put in, nothing is handed out,
nobody begins to wait, and one who waits may be gone. -/
theorem step (h : Released d.queue) (r : Request κ ω) :
    Released (d.step r).1.queue ∧ handedKeys (d.step r).2 = [] ∧
      (d.step r).1.queue.waiters = remaining d.queue.waiters r := by
  cases r with
  | add k =>
    simp only [Desk.step, add_of_closed h.closed]
    exact ⟨h, rfl, rfl⟩
  | addAfter now k delay =>
    simp only [Desk.step, addAfter_of_closed h.closed, Desk.addedAfter]
    refine ⟨h, ?_, rfl⟩
    split <;> rfl
  | addRateLimited now k =>
    -- The failure is counted, which nobody sees who waits or asks.
    have hcounted : ∃ failures, (d.queue.addRateLimited now k).1 = { d.queue with failures } := by
      unfold WorkQueue.addRateLimited
      dsimp only
      split
      · exact ⟨_, rfl⟩
      · rw [addAfter_of_closed (by exact h.closed)]
        exact ⟨_, rfl⟩
    obtain ⟨failures, hq⟩ := hcounted
    simp only [Desk.step, hq]
    refine ⟨⟨h.closed, h.empty, h.up, h.woken⟩, ?_, rfl⟩
    cases d.backoff? k with
    | none => rfl
    | some delay =>
      simp only [Option.elim, Desk.addedAfter]
      split <;> rfl
  | forget k => exact ⟨⟨h.closed, h.empty, h.up, h.woken⟩, rfl, rfl⟩
  | fire t =>
    simp only [Desk.step, WorkQueue.fire]
    rw [add_of_closed (by exact h.closed)]
    exact ⟨⟨h.closed, h.empty, h.up, h.woken⟩, rfl, rfl⟩
  | get w =>
    simp only [Desk.step, h.get_eq, Desk.receive]
    exact ⟨h, rfl, rfl⟩
  | resume w =>
    simp only [Desk.step, h.resume_eq, Desk.receive]
    exact ⟨h.leave w, rfl, rfl⟩
  | leave w => exact ⟨h.leave w, rfl, rfl⟩
  | done w k =>
    simp only [Desk.step, done_of_closed h.closed]
    exact ⟨⟨h.closed, h.empty, h.up, h.woken⟩, rfl, rfl⟩
  | shutdown =>
    -- The queue is ready already, so a second shutdown wakes no one again.
    have hq : d.queue.shutdown = { d.queue with closed := true, timers := [], queue := [] } := by
      rw [WorkQueue.shutdown, WorkQueue.signal, if_pos (by exact h.up)]
    simp only [Desk.step, hq]
    exact ⟨⟨rfl, rfl, h.up, h.woken⟩, rfl, rfl⟩

/-- A released queue hands out nothing any more, and stays released. -/
theorem uses (h : Released d.queue) {es : List (QueueEvent κ ω)} {d' : Desk κ ω}
    (hrun : Desk.Uses d es d') :
    Released d'.queue ∧ handedKeys es = [] ∧ d'.queue.waiters.Sublist d.queue.waiters := by
  induction hrun with
  | refl => exact ⟨h, rfl, List.Sublist.refl _⟩
  | step r _ _ ih =>
    obtain ⟨hrel, hnone, hsub⟩ := ih
    obtain ⟨hrel', hnone', hws⟩ := hrel.step r
    refine ⟨hrel', ?_, ?_⟩
    · rw [handedKeys_append, hnone, hnone']
      rfl
    · rw [hws]
      exact (remaining_sublist _ r).trans hsub

end Released

/-! ### Endless runs after shutdown -/

variable [DecidableEq κ]

namespace Desk.Endless

variable {d : Desk κ ω}

/-- A released queue stays so all along an endless run. -/
theorem released (s : Endless d) (h : Released d.queue) (n : Nat) :
    Released (s.desk n).queue := by
  induction n with
  | zero => rwa [s.desk_zero]
  | succ n ih =>
    rw [s.desk_succ]
    exact (ih.step _).1

/-- Each step of an endless run leaves those who remain. -/
theorem waiters_succ (s : Endless d) (h : Released d.queue) (n : Nat) :
    (s.desk (n + 1)).queue.waiters = remaining (s.desk n).queue.waiters (s.request n) := by
  rw [s.desk_succ]
  exact ((s.released h n).step _).2.2

/-- Fewer and fewer wait as an endless run goes on. -/
theorem waiters_sublist (s : Endless d) (h : Released d.queue) {n m : Nat} (hnm : n ≤ m) :
    (s.desk m).queue.waiters.Sublist (s.desk n).queue.waiters := by
  induction hnm with
  | refl => exact List.Sublist.refl _
  | step _ ih =>
    rw [s.waiters_succ h]
    exact (remaining_sublist _ _).trans ih

/-- One who goes on or gives up was waiting, and is gone afterwards. -/
theorem length_waiters_succ_lt (s : Endless d) (h : Released d.queue) {m : Nat} {w : ω}
    (hgo : s.request m = .resume w ∨ s.request m = .leave w) :
    (s.desk (m + 1)).queue.waiters.length < (s.desk m).queue.waiters.length := by
  have hadm := s.admits m
  have hws := s.waiters_succ h m
  -- The worker is one of those who wait, as otherwise it could not make the request.
  have hwaits : ∃ x ∈ (s.desk m).queue.waiters, (x.name == w) = true := by
    rcases hgo with hgo | hgo
    · rw [hgo] at hadm
      obtain ⟨x, hx, hw⟩ := List.any_eq_true.mp (show WorkQueue.isWoken _ _ = true from hadm)
      exact ⟨x, hx, (Bool.and_eq_true _ _ ▸ hw).1⟩
    · rw [hgo] at hadm
      obtain ⟨x, hx, rfl⟩ := hadm
      exact ⟨x, hx, beq_self_eq_true _⟩
  obtain ⟨x, hx, hw⟩ := hwaits
  have hgone : (s.desk (m + 1)).queue.waiters =
      (s.desk m).queue.waiters.eraseP fun x => x.name == w := by
    rcases hgo with hgo | hgo
    · rw [hws, hgo]
      rfl
    · rw [hws, hgo]
      rfl
  have hlen := List.length_eraseP_of_mem (p := fun x : Waiter ω => x.name == w) hx hw
  have hpos : 0 < (s.desk m).queue.waiters.length := List.length_pos_of_mem hx
  rw [hgone, hlen]
  omega

/-- In the end nobody waits any more. The induction is on the number of those who wait. -/
theorem exists_waiters_eq_nil (s : Endless d) (h : Released d.queue) (hgo : s.GoesOn) :
    ∃ n, ∀ m, n ≤ m → (s.desk m).queue.waiters = [] := by
  -- Who waits was woken and goes on some time, and then there is one less.
  have hempty : ∀ len n, (s.desk n).queue.waiters.length ≤ len →
      ∃ m, (s.desk m).queue.waiters = [] := by
    intro len
    induction len with
    | zero =>
      intro n hn
      exact ⟨n, List.eq_nil_of_length_eq_zero (by omega)⟩
    | succ len ih =>
      intro n hn
      match hws : (s.desk n).queue.waiters with
      | [] => exact ⟨n, hws⟩
      | x :: rest =>
        have hx : x ∈ (s.desk n).queue.waiters := by simp [hws]
        obtain ⟨m, hnm, hm⟩ := hgo n x hx ((s.released h n).woken x hx)
        have hless := s.length_waiters_succ_lt h hm
        have hsub := (s.waiters_sublist h hnm).length_le
        exact ih (m + 1) (by omega)
  obtain ⟨n, hn⟩ := hempty _ 0 (Nat.le_refl _)
  -- Once nobody waits, nobody begins to.
  refine ⟨n, fun m hm => ?_⟩
  have hsub := s.waiters_sublist h hm
  rw [hn] at hsub
  exact List.sublist_nil.mp hsub

end Desk.Endless

/-! ### The laws together -/

/-- The laws of waiting, after any requests by any number of workers.

A worker that waits and has not been woken waits at an empty queue that was not shut down. Once the
queue is shut down it stays empty and hands out no key whatever is requested, nobody begins to wait,
everybody who waits has been woken and can go on, and everybody who goes on or asks anew is turned
away. If those who were woken go on or give up some time, then everybody who waits is turned away or
gives up, and in the end nobody waits. -/
theorem waiting_discipline {baseDelay maxDelay : Number} {es : List (QueueEvent κ ω)}
    {d : Desk κ ω} (hrun : Desk.Uses (.fresh baseDelay maxDelay) es d) :
    (∀ x ∈ d.queue.waiters, x.woken = false → d.queue.queue = [] ∧ d.queue.closed = false) ∧
    (d.step .shutdown).1.queue.closed = true ∧
    (d.queue.closed = true →
      (∀ es' d', Desk.Uses d es' d' →
        d'.queue.queue = [] ∧ d'.queue.closed = true ∧ handedKeys es' = [] ∧
        (∀ x ∈ d'.queue.waiters,
          x ∈ d.queue.waiters ∧ x.woken = true ∧ d'.queue.isWoken x.name = true) ∧
        ∀ w, (d'.queue.get w).2 = .closed ∧ (d'.queue.resume w).2 = .closed) ∧
      ∀ s : Desk.Endless d, s.GoesOn →
        (∀ n, ∀ x ∈ (s.desk n).queue.waiters, ∃ m, n ≤ m ∧
          ((s.request m = .resume x.name ∧ ((s.desk m).queue.resume x.name).2 = .closed) ∨
            s.request m = .leave x.name)) ∧
        ∃ n, ∀ m, n ≤ m → (s.desk m).queue.waiters = []) := by
  have hatt := attentive_of_uses hrun
  refine ⟨fun x hx hn => hatt.nothing_to_do hx hn, shutdown_closed _, fun hc => ?_⟩
  have hrel := hatt.released hc
  constructor
  · intro es' d' hrun'
    obtain ⟨hrel', hnone, hsub⟩ := hrel.uses hrun'
    refine ⟨hrel'.empty, hrel'.closed, hnone, ?_, ?_⟩
    · intro x hx
      exact ⟨hsub.subset hx, hrel'.woken x hx, hrel'.isWoken hx⟩
    · intro w
      rw [hrel'.get_eq, hrel'.resume_eq]
      exact ⟨rfl, rfl⟩
  · intro s hgo
    refine ⟨fun n x hx => ?_, s.exists_waiters_eq_nil hrel hgo⟩
    -- Everybody who waits has been woken, so the next thing is that it goes on or gives up.
    obtain ⟨m, hnm, hm⟩ := hgo n x hx ((s.released hrel n).woken x hx)
    refine ⟨m, hnm, hm.imp (fun hres => ⟨hres, ?_⟩) id⟩
    rw [(s.released hrel m).resume_eq]

/-- Two workers wait for one key. The first to go on takes it, the second waits again, and the key is
added once more before the shutdown. Neither the report of the key nor a late timer brings anything
back, and the second worker is turned away. -/
theorem waiting_discipline_shut :
    ∃ (es : List (QueueEvent Nat Nat)) (d : Desk Nat Nat),
      Desk.Uses (.fresh WorkQueue.defaultBaseDelay WorkQueue.defaultMaxDelay) es d ∧
      es = [.added 7, .handed 0 7, .added 7] ∧
      d.queue.closed = true ∧ d.queue.dirty = [7] ∧ d.queue.waiters = [⟨1, true⟩] ∧
      ∃ es' d', Desk.Uses d es' d' ∧ es' = [.finished 0 7, .added 8] ∧
        d'.queue.queue = [] ∧ handedKeys es' = [] ∧ (d'.queue.resume 1).2 = .closed := by
  have hrun := (((((((Desk.Uses.refl (κ := Nat) (ω := Nat)
    (.fresh WorkQueue.defaultBaseDelay WorkQueue.defaultMaxDelay)).step
    (.get 0) (by intro x hx; cases hx)).step
    (.get 1) (by intro x hx; cases List.mem_singleton.mp hx; decide)).step
    (.add 7) trivial).step
    (.resume 0) rfl).step
    (.resume 1) rfl).step
    (.add 7) trivial).step
    .shutdown trivial
  refine ⟨_, _, hrun, rfl, rfl, rfl, rfl, ?_⟩
  -- After the shutdown the first worker reports its key, and a timer fires.
  have hlate := fun d : Desk Nat Nat =>
    ((Desk.Uses.refl d).step (.done 0 7) trivial).step (.fire ⟨8, none⟩) trivial
  obtain ⟨hempty, -, hnone, -, haway⟩ := ((waiting_discipline hrun).2.2 rfl).1 _ _ (hlate _)
  exact ⟨_, _, hlate _, rfl, hempty, hnone, (haway 1).2⟩

end CatalogOperator.Proofs.Queue
