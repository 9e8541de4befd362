import CatalogOperator.Proofs.WorkQueue.Desk

/-!
# `CatalogOperator.Proofs.WorkQueue.Standing`: what a queue holds about one key

The standing of a key says whether the key is dirty, whether it is being processed, which timers it
has, and how many failures are recorded for it. An operation on one key leaves the standing of every
other key as it is, so each operation is described by one equation.

* `standing_add`, `standing_fire`, `standing_take`, `standing_done`, `standing_forget`: the
  operations one by one.
* `Postponement`: what becomes of a key that has failed. `standing_addRateLimited` says that there is
  nothing else.
-/

set_option autoImplicit false

namespace CatalogOperator.Proofs.Queue

variable {κ ω : Type} [DecidableEq κ]

/-- What a queue holds about a key. -/
structure Standing (κ : Type) where
  dirty : Bool
  processing : Bool
  timers : List (Timer κ)
  failures : Nat

/-- Whether nothing is held about a key but the failures that may have been recorded. -/
def Standing.Blank (s : Standing κ) : Prop :=
  s.dirty = false ∧ s.processing = false ∧ s.timers = []

/-- What a queue holds about the given key. -/
def standing (q : WorkQueue κ ω) (k : κ) : Standing κ where
  dirty := decide (k ∈ q.dirty)
  processing := decide (k ∈ q.processing)
  timers := q.timers.filter fun t => t.key = k
  failures := q.requeues k

variable {q : WorkQueue κ ω} {k k' : κ}

/-- Turning ready leaves the standing of every key. -/
theorem standing_signal (q : WorkQueue κ ω) (k : κ) : standing q.signal k = standing q k := by
  unfold WorkQueue.signal
  split <;> rfl

/-- So does queueing a key. -/
theorem standing_push (q : WorkQueue κ ω) (k' k : κ) : standing (q.push k') k = standing q k :=
  standing_signal _ k

/-- A key that is marked is dirty. -/
theorem standing_marked (q : WorkQueue κ ω) (k' k : κ) :
    standing { q with dirty := q.dirty ++ [k'] } k =
      if k' = k then { standing q k with dirty := true } else standing q k := by
  split
  · next h => simp [standing, WorkQueue.requeues, h]
  · next h => simp [standing, WorkQueue.requeues, Ne.symm h]

/-- A key that is added is dirty. -/
theorem standing_add (ho : q.closed = false) (k' k : κ) :
    standing (q.add k') k =
      if k' = k then { standing q k with dirty := true } else standing q k := by
  by_cases hd : k' ∈ q.dirty
  · rw [add_of_dirty hd]
    split
    · next h => simp [standing, ← h, hd]
    · rfl
  · by_cases hp : k' ∈ q.processing
    · rw [add_of_processing ho hd hp, standing_marked]
    · rw [add_of_fresh ho hd hp, standing_push, standing_marked]

/-- A timer that fires is gone, and its key is dirty. -/
theorem standing_fire (ho : q.closed = false) (t : Timer κ) (k : κ) :
    standing (q.fire t) k =
      if t.key = k then
        { standing q k with dirty := true, timers := (standing q k).timers.erase t }
      else standing q k := by
  have herase : standing { q with timers := q.timers.erase t } k =
      { standing q k with timers := (standing q k).timers.erase t } := by
    simp only [standing, List.erase_filter]
    rfl
  have hadd := standing_add (q := { q with timers := q.timers.erase t }) ho t.key k
  rw [herase] at hadd
  refine hadd.trans ?_
  split
  · rfl
  · next h =>
    -- A timer of another key is none of those of this one.
    have hnot : t ∉ (standing q k).timers := by simp [standing, h]
    rw [List.erase_of_not_mem hnot]

/-- A key that is handed out is being processed, and no longer dirty. -/
theorem standing_take (hd : q.dirty.Nodup) (k' : κ) (rest : List κ) (k : κ) :
    standing (q.take k' rest) k =
      if k' = k then { standing q k with dirty := false, processing := true }
      else standing q k := by
  have hprocessing : k ∈ (if q.processing.contains k' then q.processing
      else q.processing ++ [k']) ↔ k' = k ∨ k ∈ q.processing := by
    split
    · next h =>
      rw [List.contains_iff_mem] at h
      constructor
      · exact .inr
      · rintro (rfl | hk)
        · exact h
        · exact hk
    · rw [List.mem_append, List.mem_singleton, or_comm, eq_comm]
  simp only [standing, WorkQueue.take, WorkQueue.requeues, hprocessing, hd.mem_erase_iff]
  split
  · next h => simp [h]
  · next h => simp [h, Ne.symm h]

/-- A key that is reported as processed is not being processed any more. -/
theorem standing_done (hp : q.processing.Nodup) (k' k : κ) :
    standing (q.done k') k =
      if k' = k then { standing q k with processing := false } else standing q k := by
  have herase : standing { q with processing := q.processing.erase k' } k =
      if k' = k then { standing q k with processing := false } else standing q k := by
    simp only [standing, WorkQueue.requeues, hp.mem_erase_iff]
    split
    · next h => simp [h]
    · next h => simp [Ne.symm h]
  unfold WorkQueue.done
  dsimp only
  split
  · rw [standing_push, herase]
  · exact herase

/-- No failures are recorded for a key whose failures are forgotten. -/
theorem standing_forget (q : WorkQueue κ ω) (k' k : κ) :
    standing (q.forget k') k =
      if k' = k then { standing q k with failures := 0 } else standing q k := by
  simp only [standing, WorkQueue.forget, WorkQueue.requeues, Table.find?_erase]
  split <;> rfl

/-- What becomes of a key that fails at some time, given its backoff delay. -/
inductive Postponement (now : Rat) (k : κ) (delay : Option Number) (s : Standing κ) :
    Standing κ → Prop
  /-- A delay that cannot be computed or waited for: the key is not added again. -/
  | dropped : Postponement now k delay s { s with failures := s.failures + 1 }
  /-- A delay that has passed already: the key is added at once. -/
  | added (d : Number) : delay = some d → d.isAtMostZero = true →
    Postponement now k delay s { s with failures := s.failures + 1, dirty := true }
  /-- Any other delay: a timer is started. -/
  | delayed (d : Number) : delay = some d →
    Postponement now k delay s
      { s with
        failures := s.failures + 1
        timers := s.timers ++ [{ key := k, due := d.toRat?.map (now + ·) }] }

/-- Adding a key later leaves the standing of other keys. -/
theorem standing_addAfter_of_ne (ho : q.closed = false) (now : Rat) (delay : Number)
    (hk : k' ≠ k) : standing (q.addAfter now k' delay).1 k = standing q k := by
  unfold WorkQueue.addAfter
  split
  · rfl
  · split
    · rw [standing_add ho, if_neg hk]
    · split
      · rfl
      · simp [standing, WorkQueue.requeues, hk]

/-- A failure is recorded for the key that fails. -/
theorem standing_counted (q : WorkQueue κ ω) (k' k : κ) :
    standing { q with failures := q.failures.insert k' (q.requeues k' + 1) } k =
      if k' = k then { standing q k with failures := (standing q k).failures + 1 }
      else standing q k := by
  simp only [standing, WorkQueue.requeues, Table.find?_insert]
  split
  · next h => simp [h]
  · rfl

/-- A key that fails leaves all others as they are. -/
theorem standing_addRateLimited_of_ne (ho : q.closed = false) (now : Rat) (hk : k' ≠ k) :
    standing (q.addRateLimited now k').1 k = standing q k := by
  have hcounted := standing_counted q k' k
  rw [if_neg hk] at hcounted
  unfold WorkQueue.addRateLimited
  dsimp only
  split
  · exact hcounted
  · exact (standing_addAfter_of_ne (q := { q with
      failures := q.failures.insert k' (q.requeues k' + 1) }) ho now _ hk).trans hcounted

/-- A key that fails is dropped, added at once or delayed. -/
theorem standing_addRateLimited (ho : q.closed = false) (now : Rat) (k : κ) :
    Postponement now k (q.backoff? (standing q k).failures) (standing q k)
      (standing (q.addRateLimited now k).1 k) := by
  have hcounted := standing_counted q k k
  rw [if_pos rfl] at hcounted
  have hdelay : WorkQueue.backoff?
      { q with failures := q.failures.insert k (q.requeues k + 1) } (q.requeues k) =
        q.backoff? (standing q k).failures := rfl
  unfold WorkQueue.addRateLimited
  dsimp only
  rw [hdelay]
  cases hd : q.backoff? (standing q k).failures with
  | none =>
    dsimp only
    rw [hcounted]
    exact .dropped
  | some d =>
    have hclosed : ¬ q.closed = true := by simp [ho]
    dsimp only [WorkQueue.addAfter]
    rw [if_neg hclosed]
    -- The delay may have passed already, it may be out of range, or else it is waited for.
    split
    · next hzero =>
      have hadd := standing_add (q := { q with
        failures := q.failures.insert k (q.requeues k + 1) }) ho k k
      rw [if_pos rfl, hcounted] at hadd
      rw [hadd]
      exact .added d rfl hzero
    · split
      · rw [hcounted]
        exact .dropped
      · have hstarted : standing { q with
            failures := q.failures.insert k (q.requeues k + 1)
            timers := q.timers ++ [{ key := k, due := d.toRat?.map (now + ·) }]
            delays := q.delays ++ [d] } k =
              { standing q k with
                failures := (standing q k).failures + 1
                timers := (standing q k).timers ++
                  [{ key := k, due := d.toRat?.map (now + ·) }] } := by
          simp [standing, WorkQueue.requeues]
        rw [hstarted]
        exact .delayed d rfl

/-! ### The bounds of the backoff -/

omit [DecidableEq κ] in
/-- Turning ready leaves the delays as they are. -/
theorem signal_backoff? (q : WorkQueue κ ω) (n : Nat) : q.signal.backoff? n = q.backoff? n := by
  unfold WorkQueue.signal
  split <;> rfl

/-- Adding a key leaves the delays as they are. -/
@[simp] theorem add_backoff? (q : WorkQueue κ ω) (k : κ) (n : Nat) :
    (q.add k).backoff? n = q.backoff? n := by
  unfold WorkQueue.add
  dsimp only
  split
  · rfl
  · split
    · rfl
    · exact signal_backoff? _ n

/-- Reporting a key leaves the delays as they are. -/
@[simp] theorem done_backoff? (q : WorkQueue κ ω) (k : κ) (n : Nat) :
    (q.done k).backoff? n = q.backoff? n := by
  unfold WorkQueue.done
  dsimp only
  split
  · exact signal_backoff? _ n
  · rfl

/-- Recording a failure leaves the delays as they are. -/
@[simp] theorem addRateLimited_backoff? (q : WorkQueue κ ω) (now : Rat) (k : κ) (n : Nat) :
    (q.addRateLimited now k).1.backoff? n = q.backoff? n := by
  unfold WorkQueue.addRateLimited WorkQueue.addAfter
  dsimp only
  split
  · rfl
  · split
    · rfl
    · split
      · exact add_backoff? _ k n
      · split <;> rfl

end CatalogOperator.Proofs.Queue
