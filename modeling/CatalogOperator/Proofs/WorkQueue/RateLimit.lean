import CatalogOperator.Proofs.Number.Rounding
import CatalogOperator.Proofs.WorkQueue.Standing
import Mathlib.Order.Monotone.Basic

/-!
# `CatalogOperator.Proofs.WorkQueue.RateLimit`: the delay after a failure

A key that fails comes back after a delay that doubles with each failure in a row, up to a greatest
one. The delay is computed before it is cut: where the base delay is a double, the factor has to be one
too. So the 1025th failure in a row, which is far beyond the greatest delay of any sensible setting, is
still recorded, but no timer is started for the key.

* `addAfter_of_denotes`: putting a key off by a given delay.
* `Paced.backoff?_cases`: the delay as a number, or the lack of one.
* `requeues_addRateLimited`, `requeues_forget`: the failures of all keys. `step_failures`: no other request
  has to do with them.
* `backs_off`: when a failure puts the key off, and by how much. `not_backs_off_exhausted` is the
  failure that does not.
-/

set_option autoImplicit false

namespace CatalogOperator.Proofs.Queue

variable {κ ω : Type}

/-- A queue that accepts keys, with the given base delay and greatest delay. -/
structure Paced (q : WorkQueue κ ω) (base greatest : Rat) : Prop where
  isOpen : q.closed = false
  base : q.baseDelay.Denotes base
  greatest : q.maxDelay.Denotes greatest

/-- The delay after the given number of earlier failures: the base delay doubled as many times, cut at
the greatest delay. -/
def backoffDelay (base greatest : Rat) (failures : Nat) : Rat :=
  min (base * 2 ^ failures) greatest

/-- The delay after the given number of earlier failures can be computed and waited for: the factor is
taken as a double, unless the base delay is a whole number, and the delay is. -/
def WithinReach (base : Number) (failures : Nat) (delay : Rat) : Prop :=
  ((∃ n, base = .int n) ∨ failures < 1024) ∧ delay < Double.limit

/-- The delay never exceeds the greatest one. -/
theorem backoffDelay_le (base greatest : Rat) (n : Nat) : backoffDelay base greatest n ≤ greatest :=
  min_le_right _ _

/-- The delay does not decrease with the number of failures. -/
theorem backoffDelay_mono {base : Rat} (hbase : 0 < base) (greatest : Rat) :
    Monotone (backoffDelay base greatest) := by
  intro n n' h
  have hpow : (2 : Rat) ^ n ≤ 2 ^ n' := pow_le_pow_right₀ one_le_two h
  exact min_le_min_right _ (mul_le_mul_of_nonneg_left hpow hbase.le)

variable {q : WorkQueue κ ω} {base greatest : Rat}

/-- There is no delay as a number exactly if the base delay is a double and the factor is none. Else the
number denotes the delay, or both are out of reach: a double out of range is cut at a greatest delay that
may be out of range as well. -/
theorem Paced.backoff?_cases (h : Paced q base greatest) (n : Nat) :
    (¬ ((∃ k, q.baseDelay = .int k) ∨ n < 1024) ∧ q.backoff? n = none) ∨
      ∃ d r, q.backoff? n = some d ∧ d.Denotes r ∧
        (r = backoffDelay base greatest n ∨
          Double.limit ≤ r ∧ Double.limit ≤ backoffDelay base greatest n) ∧
        ((∃ k, q.baseDelay = .int k) ∨ n < 1024) := by
  unfold WorkQueue.backoff?
  have hbase := h.base
  cases hkind : q.baseDelay with
  | int k =>
    rw [hkind] at hbase
    obtain ⟨x, hx, hdenotes⟩ := Number.doubled_int hbase n
    rw [hx]
    exact .inr ⟨_, _, rfl, hdenotes.min h.greatest, .inl rfl, .inl ⟨k, rfl⟩⟩
  | float d =>
    rw [hkind] at hbase
    rw [Number.doubled_float hbase]
    by_cases hn : n < 1024
    · rw [if_pos hn]
      refine .inr ?_
      have hpos : 0 < base * 2 ^ n := by
        have := hbase.1
        positivity
      by_cases hrange : Double.range ≤ base * 2 ^ n
      · -- Out of range, the greatest delay takes over. It may be a whole number beyond that.
        refine ⟨_, greatest, rfl, ?_, ?_, .inr hn⟩
        · rw [if_pos hrange]
          dsimp only
          rw [h.greatest.min_infinite]
          exact h.greatest
        · unfold backoffDelay
          rcases le_total greatest (base * 2 ^ n) with hle | hle
          · exact .inl (min_eq_right hle).symm
          · have hlimit := Double.limit_lt_range.le.trans hrange
            exact .inr ⟨hlimit.trans hle, le_min hlimit (hlimit.trans hle)⟩
      · have hdenotes : (Number.float (.finite (base * 2 ^ n))).Denotes (base * 2 ^ n) := by
          obtain ⟨-, hpositive, hkept, -⟩ := Number.denotes_float_iff.1 hbase
          exact Number.denotes_float_iff.2 ⟨rfl, hpos,
            Double.roundPositive_mul_two_pow hpositive hkept n, not_le.1 hrange⟩
        refine ⟨_, _, rfl, ?_, .inl rfl, .inr hn⟩
        rw [if_neg hrange]
        exact hdenotes.min h.greatest
    · rw [if_neg hn]
      exact .inl ⟨by simp [hn], rfl⟩

variable [DecidableEq κ]

/-- A key is put off by a delay that can be taken as a double. Any other delay is refused. -/
theorem addAfter_of_denotes (ho : q.closed = false) (now : Rat) (key : κ) {d : Number} {delay : Rat}
    (hd : d.Denotes delay) :
    q.addAfter now key d =
      if Double.limit ≤ delay then (q, .error (.overflow "int too large to convert to float"))
      else
        ({ q with
          timers := q.timers ++ [{ key, due := some (now + delay) }]
          delays := q.delays ++ [d] }, .ok ()) := by
  have hopen : ¬ q.closed = true := by simp [ho]
  have hpositive : ¬ d.isAtMostZero = true := by simp [hd.isAtMostZero]
  unfold WorkQueue.addAfter
  rw [if_neg hopen, if_neg hpositive, hd.toRat?]
  split
  · next h => rw [if_pos (hd.toDouble?_eq_none_iff.1 h)]
  · next h =>
    rw [if_neg fun hlimit => ?_]
    · rfl
    · rw [hd.toDouble?_eq_none_iff.2 hlimit] at h
      cases h

/-- The queue with one more failure of a key recorded. -/
def counted (q : WorkQueue κ ω) (key : κ) : WorkQueue κ ω :=
  { q with failures := q.failures.insert key (q.requeues key + 1) }

/-- One more failure is recorded. -/
@[simp] theorem requeues_counted (q : WorkQueue κ ω) (key : κ) :
    (counted q key).requeues key = q.requeues key + 1 := by
  simp [counted, WorkQueue.requeues]

/-- A failure is recorded before its delay is computed, whether or not that succeeds. -/
theorem addRateLimited_eq (q : WorkQueue κ ω) (now : Rat) (key : κ) :
    q.addRateLimited now key =
      match q.backoff? (q.requeues key) with
      | none => (counted q key, .error (.overflow "int too large to convert to float"))
      | some d => (counted q key).addAfter now key d :=
  rfl

/-- One more failure of a key puts the key off: nothing goes wrong, the failure is recorded, and one more
timer is started for the key with the given delay. Nothing else changes. -/
def PutsOff (q : WorkQueue κ ω) (now : Rat) (key : κ) (delay : Rat) : Prop :=
  ∃ d : Number, d.toRat? = some delay ∧
    q.addRateLimited now key =
      ({ counted q key with
        timers := q.timers ++ [{ key, due := some (now + delay) }]
        delays := q.delays ++ [d] }, .ok ())

/-- One more failure of a key is recorded, and that is all: an overflow is raised. -/
def GivesUp (q : WorkQueue κ ω) (now : Rat) (key : κ) : Prop :=
  q.addRateLimited now key =
    (counted q key, .error (.overflow "int too large to convert to float"))

/-- What puts a key off does not give it up. -/
theorem PutsOff.not_givesUp {now : Rat} {key : κ} {delay : Rat} (h : PutsOff q now key delay) :
    ¬ GivesUp q now key := by
  obtain ⟨d, -, hd⟩ := h
  unfold GivesUp
  rw [hd]
  simp

namespace Paced

/-- A failure puts the key off if the delay is within reach. -/
theorem putsOff (h : Paced q base greatest) (now : Rat) (key : κ)
    (hreach : WithinReach q.baseDelay (q.requeues key)
      (backoffDelay base greatest (q.requeues key))) :
    PutsOff q now key (backoffDelay base greatest (q.requeues key)) := by
  obtain ⟨hfactor, hlimit⟩ := hreach
  rcases h.backoff?_cases (q.requeues key) with ⟨hno, -⟩ | ⟨d, r, hd, hdenotes, hr, -⟩
  · exact absurd hfactor hno
  · obtain rfl : r = _ := hr.resolve_right fun hfar => absurd hlimit (not_lt.2 hfar.2)
    refine ⟨d, hdenotes.toRat?, ?_⟩
    rw [addRateLimited_eq, hd]
    dsimp only
    rw [addAfter_of_denotes (q := counted q key) h.isOpen now key hdenotes,
      if_neg (not_le.2 hlimit)]
    rfl

/-- If the delay is out of reach, the failure is recorded all the same. -/
theorem givesUp (h : Paced q base greatest) (now : Rat) (key : κ)
    (hreach : ¬ WithinReach q.baseDelay (q.requeues key)
      (backoffDelay base greatest (q.requeues key))) :
    GivesUp q now key := by
  unfold GivesUp
  rw [addRateLimited_eq]
  rcases h.backoff?_cases (q.requeues key) with ⟨-, hnone⟩ | ⟨d, r, hd, hdenotes, hr, hfactor⟩
  · rw [hnone]
  · have hlimit : Double.limit ≤ r := by
      rcases hr with rfl | hfar
      · exact not_lt.1 fun hlt => hreach ⟨hfactor, hlt⟩
      · exact hfar.1
    rw [hd]
    dsimp only
    rw [addAfter_of_denotes (q := counted q key) h.isOpen now key hdenotes, if_pos hlimit]

/-- Either way the failure counts, and the queue keeps its pace. -/
theorem addRateLimited (h : Paced q base greatest) (now : Rat) (key : κ) :
    Paced (q.addRateLimited now key).1 base greatest ∧
      (q.addRateLimited now key).1.baseDelay = q.baseDelay ∧
      (q.addRateLimited now key).1.requeues key = q.requeues key + 1 := by
  by_cases hreach : WithinReach q.baseDelay (q.requeues key)
      (backoffDelay base greatest (q.requeues key))
  · obtain ⟨d, -, hd⟩ := h.putsOff now key hreach
    rw [hd]
    exact ⟨⟨h.isOpen, h.base, h.greatest⟩, rfl, requeues_counted q key⟩
  · rw [h.givesUp now key hreach]
    exact ⟨⟨h.isOpen, h.base, h.greatest⟩, rfl, requeues_counted q key⟩

end Paced

/-! ### The failures of all keys -/

omit [DecidableEq κ] in
/-- Turning ready leaves the failures as they are. -/
@[simp] theorem signal_failures (q : WorkQueue κ ω) : q.signal.failures = q.failures := by
  unfold WorkQueue.signal
  split <;> rfl

/-- Adding a key leaves the failures as they are. -/
@[simp] theorem add_failures (q : WorkQueue κ ω) (key : κ) :
    (q.add key).failures = q.failures := by
  unfold WorkQueue.add
  dsimp only
  split
  · rfl
  · split
    · rfl
    · exact signal_failures _

/-- Reporting a key leaves the failures as they are. -/
@[simp] theorem done_failures (q : WorkQueue κ ω) (key : κ) :
    (q.done key).failures = q.failures := by
  unfold WorkQueue.done
  dsimp only
  split
  · exact signal_failures _
  · rfl

/-- Adding a key later leaves the failures as they are. -/
@[simp] theorem addAfter_failures (q : WorkQueue κ ω) (now : Rat) (key : κ) (delay : Number) :
    (q.addAfter now key delay).1.failures = q.failures := by
  unfold WorkQueue.addAfter
  split
  · rfl
  · split
    · exact add_failures q key
    · split <;> rfl

/-- Asking for a key leaves the failures as they are. -/
@[simp] theorem get_failures (q : WorkQueue κ ω) (worker : ω) :
    (q.get worker).1.failures = q.failures := by
  unfold WorkQueue.get
  split
  · rfl
  · split <;> rfl

/-- The failures of a key are forgotten, and those of other keys are not. -/
theorem requeues_forget (q : WorkQueue κ ω) (key key' : κ) :
    (q.forget key).requeues key' = if key = key' then 0 else q.requeues key' := by
  unfold WorkQueue.requeues WorkQueue.forget
  rw [Table.find?_erase]
  split <;> rfl

/-- A failure is counted for the key that failed, also if no delay can be computed. -/
theorem requeues_addRateLimited (q : WorkQueue κ ω) (now : Rat) (key key' : κ) :
    (q.addRateLimited now key).1.requeues key' =
      if key = key' then q.requeues key' + 1 else q.requeues key' := by
  have hcounted : (q.addRateLimited now key).1.failures = (counted q key).failures := by
    rw [addRateLimited_eq]
    split
    · rfl
    · exact addAfter_failures _ now key _
  unfold WorkQueue.requeues
  rw [hcounted, counted, Table.find?_insert]
  split
  · next h => simp [WorkQueue.requeues, h]
  · rfl

/-- Whether a request is not about failures: it neither records one nor forgets any. -/
def Request.IsPlain : Request κ ω → Prop
  | .addRateLimited _ _ => False
  | .forget _ => False
  | _ => True

/-- Such a request leaves the recorded failures alone. -/
theorem step_failures [DecidableEq ω] (d : Desk κ ω) {r : Request κ ω} (h : r.IsPlain) :
    (d.step r).1.queue.failures = d.queue.failures := by
  have hreceive : ∀ (w : ω) (answer : WorkQueue κ ω × Handout κ),
      (d.receive w answer).1.queue.failures = answer.1.failures := by
    rintro w ⟨q, a⟩
    cases a <;> rfl
  cases r with
  | add k => exact add_failures d.queue k
  | addAfter now k delay => exact addAfter_failures d.queue now k delay
  | addRateLimited => exact h.elim
  | forget => exact h.elim
  | fire t => exact add_failures _ t.key
  | get w => exact (hreceive w _).trans (get_failures d.queue w)
  | resume w => exact (hreceive w _).trans (get_failures _ w)
  | leave => rfl
  | done w k => exact done_failures d.queue k
  | shutdown => exact signal_failures _

/-! ### Failures in a row -/

/-- The queue after the key has failed at each of the given times. -/
def failing (q : WorkQueue κ ω) (key : κ) (times : List Rat) : WorkQueue κ ω :=
  times.foldl (fun q now => (q.addRateLimited now key).1) q

/-- The failures come one after the other. -/
theorem failing_cons (q : WorkQueue κ ω) (key : κ) (now : Rat) (times : List Rat) :
    failing q key (now :: times) = failing (q.addRateLimited now key).1 key times :=
  rfl

namespace Paced

/-- A queue keeps its delays while a key fails, and each failure is recorded. -/
theorem failing (h : Paced q base greatest) (key : κ) (times : List Rat) :
    Paced (failing q key times) base greatest ∧
      (Queue.failing q key times).baseDelay = q.baseDelay ∧
      (Queue.failing q key times).requeues key = q.requeues key + times.length := by
  induction times generalizing q with
  | nil => exact ⟨h, rfl, rfl⟩
  | cons now times ih =>
    obtain ⟨hpaced, hbase, hcount⟩ := h.addRateLimited now key
    obtain ⟨hpaced', hbase', hcount'⟩ := ih hpaced
    rw [failing_cons, hbase', hcount', hbase, hcount, List.length_cons]
    exact ⟨hpaced', rfl, by omega⟩

/-- Each failure in a row starts one timer, as long as the delays are within reach. -/
theorem timers_failing (h : Paced q base greatest) (key : κ) (times : List Rat)
    (hreach : ∀ i < times.length, WithinReach q.baseDelay (q.requeues key + i)
      (backoffDelay base greatest (q.requeues key + i))) :
    (Queue.failing q key times).timers = q.timers ++ times.mapIdx fun i now =>
      { key, due := some (now + backoffDelay base greatest (q.requeues key + i)) } := by
  induction times generalizing q with
  | nil => simp [Queue.failing]
  | cons now times ih =>
    obtain ⟨hpaced, hbase, hcount⟩ := h.addRateLimited now key
    obtain ⟨d, -, hd⟩ := h.putsOff now key (hreach 0 (by simp))
    have hrest := ih hpaced fun i hi => by
      rw [hbase, hcount, Nat.add_assoc, Nat.add_comm 1]
      exact hreach (i + 1) (by simpa using hi)
    rw [failing_cons, hrest, hcount, hd, List.mapIdx_cons]
    simp [Nat.add_assoc, Nat.add_comm 1]

end Paced

/-! ### One more failure -/

/-- A failure of a key is recorded. It puts the key off by the base delay, doubled once for each earlier
failure and cut at the greatest delay, exactly if that is within reach, and else raises an overflow and
starts no timer. So a key that fails any number of times in a row is put off each time while the delays
are within reach, by delays that do not decrease and never exceed the greatest one. -/
theorem backs_off (h : Paced q base greatest) (now : Rat) (key : κ) :
    (q.addRateLimited now key).1.requeues key = q.requeues key + 1 ∧
      (PutsOff q now key (backoffDelay base greatest (q.requeues key)) ↔
        WithinReach q.baseDelay (q.requeues key)
          (backoffDelay base greatest (q.requeues key))) ∧
      (GivesUp q now key ↔
        ¬ WithinReach q.baseDelay (q.requeues key)
          (backoffDelay base greatest (q.requeues key))) ∧
      (∀ times : List Rat,
        (∀ i < times.length, WithinReach q.baseDelay (q.requeues key + i)
          (backoffDelay base greatest (q.requeues key + i))) →
        (failing q key times).timers = q.timers ++ times.mapIdx fun i now =>
          { key, due := some (now + backoffDelay base greatest (q.requeues key + i)) }) ∧
      Monotone (backoffDelay base greatest) ∧
      ∀ n, backoffDelay base greatest n ≤ greatest := by
  refine ⟨(h.addRateLimited now key).2.2, ⟨fun hoff => ?_, h.putsOff now key⟩,
    ⟨fun hup hreach => (h.putsOff now key hreach).not_givesUp hup, h.givesUp now key⟩,
    h.timers_failing key, backoffDelay_mono h.base.1 greatest, backoffDelay_le base greatest⟩
  exact Classical.byContradiction fun hreach => hoff.not_givesUp (h.givesUp now key hreach)

/-- The default base delay as a rational: the double nearest to five thousandths. -/
def defaultBase : Rat :=
  5764607523034235 / 1152921504606846976

/-- A new queue with the default delays. -/
def defaultQueue : WorkQueue String String where
  baseDelay := WorkQueue.defaultBaseDelay
  maxDelay := WorkQueue.defaultMaxDelay

/-- The delays of a default queue are those it was given. -/
theorem paced_defaultQueue : Paced defaultQueue defaultBase 1000 where
  isOpen := rfl
  base := ⟨by decide +kernel, by decide +kernel, by decide +kernel⟩
  greatest := ⟨by decide +kernel, by decide +kernel, by decide +kernel⟩

/-- The eighteenth failure in a row is the last one whose delay is not cut. -/
theorem backs_off_default :
    Paced (failing defaultQueue "k" (List.replicate 17 0)) defaultBase 1000 ∧
      PutsOff (failing defaultQueue "k" (List.replicate 17 0)) 1 "k" (defaultBase * 2 ^ 17) := by
  obtain ⟨hpaced, -, hcount⟩ := paced_defaultQueue.failing "k" (List.replicate 17 0)
  have hcount' : (failing defaultQueue "k" (List.replicate 17 0)).requeues "k" = 17 := by
    rw [hcount]
    rfl
  have h := (backs_off hpaced 1 "k").2.1
  rw [hcount'] at h
  have hdelay : backoffDelay defaultBase 1000 17 = defaultBase * 2 ^ 17 := by decide +kernel
  rw [hdelay] at h
  refine ⟨hpaced, h.2 ⟨.inr (by decide), ?_⟩⟩
  decide +kernel

/-- With the default delays, the failure after 1024 others in a row is recorded, but the key is not put
off. -/
theorem not_backs_off_exhausted :
    Paced (failing defaultQueue "k" (List.replicate 1024 0)) defaultBase 1000 ∧
      (failing defaultQueue "k" (List.replicate 1024 0)).requeues "k" = 1024 ∧
      GivesUp (failing defaultQueue "k" (List.replicate 1024 0)) 0 "k" ∧
      ¬ PutsOff (failing defaultQueue "k" (List.replicate 1024 0)) 0 "k"
        (backoffDelay defaultBase 1000 1024) := by
  obtain ⟨hpaced, hbase, hcount⟩ := paced_defaultQueue.failing "k" (List.replicate 1024 0)
  have hcount' : (failing defaultQueue "k" (List.replicate 1024 0)).requeues "k" = 1024 := by
    rw [hcount, List.length_replicate]
    rfl
  have hup : GivesUp (failing defaultQueue "k" (List.replicate 1024 0)) 0 "k" := by
    refine hpaced.givesUp 0 "k" fun hreach => ?_
    rw [hcount', hbase] at hreach
    rcases hreach.1 with ⟨n, hn⟩ | hlt
    · cases hn
    · omega
  exact ⟨hpaced, hcount', hup, fun hoff => hoff.not_givesUp hup⟩

end CatalogOperator.Proofs.Queue
