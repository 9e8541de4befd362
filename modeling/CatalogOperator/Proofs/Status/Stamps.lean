import CatalogOperator.Reconcile.Basic

/-!
# `CatalogOperator.Proofs.Status.Stamps`: the times in the status of a resource

The record of a phase has two times: one follows the changes of the name, the other one the changes
of the name or the message. A request for what the record says already leaves it alone, whatever its
time is, so names and messages may come back any number of times.

* `answers`, `after`: what the requests of a sequence return, and the record they leave.
* `standing`: what the record says before each request. It needs the requests only.
* `stamped`: the record after a sequence, in closed form.
* `timely_after`: the two times stay in order, if the requests come in the order of their times.
-/

set_option autoImplicit false

namespace CatalogOperator.Proofs.Status

/-! ### Requests -/

/-- A transition that is asked for at a time. -/
structure Request where
  transition : Transition
  time : Moment

/-- The name and the message that are asked for. -/
def Request.told (c : Request) : Value × Value :=
  (.text c.transition.name, .text c.transition.message)

/-- The name and the message of a record. -/
def wording (r : PhaseRecord) : Value × Value :=
  (r.name, r.message)

/-- A request on a record: whether it changes the record, and what it leaves. -/
def ask (r : PhaseRecord) (c : Request) : Bool × PhaseRecord :=
  (!r.agrees c.transition, r.advance c.transition c.time)

/-- The record after a sequence of requests. -/
def after (r : PhaseRecord) (cs : List Request) : PhaseRecord :=
  cs.foldl (fun r c => (ask r c).2) r

/-- What the requests of a sequence return. -/
def answers (r : PhaseRecord) : List Request → List Bool
  | [] => []
  | c :: cs => (ask r c).1 :: answers (ask r c).2 cs

/-- The requests of a sequence that return true. -/
def granted (r : PhaseRecord) (cs : List Request) : List Request :=
  ((cs.zip (answers r cs)).filter (·.2)).map (·.1)

/-- What the record says before each request of a sequence: what it says at first, and then what each
request has told it. -/
def standing (r : PhaseRecord) (cs : List Request) : List (Value × Value) :=
  wording r :: cs.map Request.told

/-- The requests of a sequence that tell another name than the one that stands. -/
def moved (r : PhaseRecord) (cs : List Request) : List Request :=
  ((cs.zip (standing r cs)).filter fun p => decide (p.1.told.1 ≠ p.2.1)).map (·.1)

/-- The time of the last of some requests, or the given one if there is none. -/
def latest (cs : List Request) (before : Option Moment) : Option Moment :=
  (cs.getLast?.map Request.time).or before

/-- The last of the requests decides about the time. -/
theorem latest_cons (c : Request) (cs : List Request) (before : Option Moment) :
    latest (c :: cs) before = latest cs (some c.time) := by
  unfold latest
  rw [List.getLast?_cons]
  cases cs.getLast? <;> rfl

/-! ### One request -/

/-- A record agrees with a transition if it says just that. -/
theorem agrees_iff (r : PhaseRecord) (c : Request) :
    r.agrees c.transition = true ↔ wording r = c.told := by
  simp [PhaseRecord.agrees, wording, Request.told]

/-- A request for what the record says already does nothing. -/
theorem ask_of_wording {r : PhaseRecord} {c : Request} (h : wording r = c.told) :
    ask r c = (false, r) := by
  have hagrees := (agrees_iff r c).mpr h
  rw [ask, PhaseRecord.advance_of_agrees c.time hagrees, hagrees]
  rfl

/-- A request for something else is granted: the time of the update is its time, and so is the time
of the transition if the name is another one. -/
theorem ask_of_wording_ne {r : PhaseRecord} {c : Request} (h : wording r ≠ c.told) :
    ask r c =
      (true,
        { name := c.told.1
          message := c.told.2
          lastTransition := if c.told.1 = r.name then r.lastTransition else some c.time
          lastUpdate := some c.time }) := by
  have hagrees : r.agrees c.transition = false := by
    rw [Bool.eq_false_iff]
    exact fun hagrees => h ((agrees_iff r c).mp hagrees)
  rw [ask, PhaseRecord.advance, hagrees]
  simp [Request.told, eq_comm (a := Value.text c.transition.name)]

/-- A request returns true just if it tells something else than what stands. -/
theorem ask_fst (r : PhaseRecord) (c : Request) : (ask r c).1 = decide (wording r ≠ c.told) := by
  by_cases h : wording r = c.told
  · simp [ask_of_wording h, h]
  · simp [ask_of_wording_ne h, h]

/-- In the end the record says what it was told. -/
theorem wording_ask (r : PhaseRecord) (c : Request) : wording (ask r c).2 = c.told := by
  by_cases h : wording r = c.told
  · rw [ask_of_wording h, h]
  · rw [ask_of_wording_ne h]
    rfl

/-- The time of the transition moves with the name. A granted request for the name that stands
changes the message only, and a request that is not granted has no other name. -/
theorem lastTransition_ask (r : PhaseRecord) (c : Request) :
    (ask r c).2.lastTransition =
      if c.told.1 = (wording r).1 then r.lastTransition else some c.time := by
  by_cases h : wording r = c.told
  · rw [ask_of_wording h, if_pos (congrArg Prod.fst h).symm]
  · rw [ask_of_wording_ne h]
    rfl

/-! ### A sequence of requests -/

/-- What stands before the first request is what the record says. -/
theorem standing_cons (r : PhaseRecord) (c : Request) (cs : List Request) :
    standing r (c :: cs) = wording r :: standing (ask r c).2 cs := by
  simp [standing, wording_ask]

/-- The first request returns true unless the record says the same. -/
theorem granted_cons (r : PhaseRecord) (c : Request) (cs : List Request) :
    granted r (c :: cs) =
      if wording r = c.told then granted r cs else c :: granted (ask r c).2 cs := by
  by_cases h : wording r = c.told
  · simp [granted, answers, ask_of_wording h, h]
  · simp [granted, answers, ask_fst, h]

/-- The first request moves unless the record has the same name. -/
theorem moved_cons (r : PhaseRecord) (c : Request) (cs : List Request) :
    moved r (c :: cs) =
      if c.told.1 = (wording r).1 then moved (ask r c).2 cs else c :: moved (ask r c).2 cs := by
  unfold moved
  rw [standing_cons, List.zip_cons_cons, List.filter_cons]
  by_cases h : c.told.1 = (wording r).1 <;> simp [h]

/-- The record says what the last request told. -/
theorem wording_after (r : PhaseRecord) (cs : List Request) :
    ∀ c ∈ cs.getLast?, wording (after r cs) = c.told := by
  intro c hc
  obtain ⟨init, rfl⟩ := List.getLast?_eq_some_iff.mp hc
  rw [after, List.foldl_append]
  exact wording_ask _ c

/-- Each request returns whether it told something else than what stood. -/
theorem answers_eq (r : PhaseRecord) (cs : List Request) :
    answers r cs = List.zipWith (fun stood c => decide (stood ≠ c.told)) (standing r cs) cs := by
  induction cs generalizing r with
  | nil => rfl
  | cons c cs ih => rw [answers, standing_cons, List.zipWith_cons_cons, ih, ask_fst]

/-- The time of the update is that of the last request that was granted. -/
theorem lastUpdate_after (r : PhaseRecord) (cs : List Request) :
    (after r cs).lastUpdate = latest (granted r cs) r.lastUpdate := by
  induction cs generalizing r with
  | nil => rfl
  | cons c cs ih =>
    rw [show after r (c :: cs) = after (ask r c).2 cs from rfl, ih, granted_cons]
    by_cases h : wording r = c.told
    · rw [if_pos h, ask_of_wording h]
    · rw [if_neg h, latest_cons, ask_of_wording_ne h]

/-- The time of the transition is that of the last request that told another name. -/
theorem lastTransition_after (r : PhaseRecord) (cs : List Request) :
    (after r cs).lastTransition = latest (moved r cs) r.lastTransition := by
  -- What the record says changes from one request to the next, so the induction is over all records.
  induction cs generalizing r with
  | nil => rfl
  | cons c cs ih =>
    rw [show after r (c :: cs) = after (ask r c).2 cs from rfl, ih, lastTransition_ask, moved_cons]
    by_cases h : c.told.1 = (wording r).1
    · rw [if_pos h, if_pos h]
    · rw [if_neg h, if_neg h, latest_cons]

/-- Requests that are not granted might as well not be made. -/
theorem after_granted (r : PhaseRecord) (cs : List Request) : after r (granted r cs) = after r cs := by
  induction cs generalizing r with
  | nil => rfl
  | cons c cs ih =>
    rw [show after r (c :: cs) = after (ask r c).2 cs from rfl, granted_cons]
    by_cases h : wording r = c.told
    · rw [if_pos h, ask_of_wording h, ih]
    · -- The request is made in both sequences, and on the same record.
      rw [if_neg h, ← ih]
      rfl

/-- The next phase of an outcome is a request at the time of its clock. -/
theorem settle_phase {Spec Packages : Type} (o : Outcome (Managed Spec Packages)) (clock : Clock) :
    (o.settle clock).1.phase =
      after o.resource.phase (o.next.toList.map fun t => ⟨t, clock.read.1⟩) := by
  unfold Outcome.settle
  cases o.next with
  | none => rfl
  | some t =>
    dsimp only
    split
    · rename_i hagrees
      exact (PhaseRecord.advance_of_agrees _ hagrees).symm
    · rfl

/-! ### Times in order -/

/-- A moment is not after another one. Two moments can be compared if both of them know their offset,
or neither does. -/
def NotAfter (a b : Moment) : Prop :=
  match a.instant?, b.instant? with
  | some x, some y => x ≤ y
  | none, none => a.onClock ≤ b.onClock
  | _, _ => False

instance (a b : Moment) : Decidable (NotAfter a b) := by
  unfold NotAfter
  split <;> infer_instance

/-- A moment is not after itself. -/
theorem NotAfter.refl (a : Moment) : NotAfter a a := by
  unfold NotAfter
  cases a.instant? <;> exact Int.le_refl _

/-- Not being after is transitive. -/
theorem NotAfter.trans {a b c : Moment} (hab : NotAfter a b) (hbc : NotAfter b c) :
    NotAfter a c := by
  unfold NotAfter at *
  cases ha : a.instant? <;> cases hb : b.instant? <;> cases hc : c.instant? <;>
    simp only [ha, hb, hc] at hab hbc ⊢
  · exact Int.le_trans hab hbc
  · exact Int.le_trans hab hbc

/-- The times of the requests do not decrease. -/
def InTime (cs : List Request) : Prop :=
  cs.Pairwise fun c d => NotAfter c.time d.time

instance (cs : List Request) : Decidable (InTime cs) :=
  inferInstanceAs (Decidable (List.Pairwise _ _))

/-- The transition is not after the update, if both times are set. -/
def Timely (r : PhaseRecord) : Prop :=
  ∀ t ∈ r.lastTransition, ∀ u ∈ r.lastUpdate, NotAfter t u

/-- A record has no times yet, or its times are in order and not after any of the requests. -/
def StartsBefore (r : PhaseRecord) (cs : List Request) : Prop :=
  r.lastTransition = none ∧ r.lastUpdate = none ∨
    ∃ t u, r.lastTransition = some t ∧ r.lastUpdate = some u ∧ NotAfter t u ∧
      ∀ c ∈ cs, NotAfter u c.time

/-- The transition is neither after the update nor after any of the requests. -/
def Precedes (r : PhaseRecord) (cs : List Request) : Prop :=
  Timely r ∧ ∀ t ∈ r.lastTransition, ∀ c ∈ cs, NotAfter t c.time

/-- A record that starts before the requests precedes them. -/
theorem StartsBefore.precedes {r : PhaseRecord} {cs : List Request} (h : StartsBefore r cs) :
    Precedes r cs := by
  rcases h with ⟨hnone, -⟩ | ⟨t, u, ht, hu, htu, hcs⟩
  · exact ⟨fun t ht => by simp [hnone] at ht, fun t ht => by simp [hnone] at ht⟩
  · simp only [Precedes, Timely, ht, hu, Option.mem_some, forall_eq']
    exact ⟨htu, fun c hc => htu.trans (hcs c hc)⟩

/-- A request keeps the transition before the update and before the requests that come later. -/
theorem precedes_ask {r : PhaseRecord} {c : Request} {cs : List Request} (htime : InTime (c :: cs))
    (h : Precedes r (c :: cs)) : Precedes (ask r c).2 cs := by
  obtain ⟨horder, hbefore⟩ := h
  obtain ⟨hlater, -⟩ := List.pairwise_cons.mp htime
  by_cases hwords : wording r = c.told
  · rw [ask_of_wording hwords]
    exact ⟨horder, fun t ht d hd => hbefore t ht d (List.mem_cons_of_mem c hd)⟩
  · -- The update takes the time of the request, and the transition takes it or keeps its own.
    have hstamp : ∀ t ∈ (ask r c).2.lastTransition, t ∈ r.lastTransition ∨ t = c.time := by
      intro t ht
      rw [lastTransition_ask] at ht
      split at ht
      · exact .inl ht
      · exact .inr (Option.mem_some.mp ht).symm
    refine ⟨fun t ht u hu => ?_, fun t ht d hd => ?_⟩
    · rw [ask_of_wording_ne hwords, Option.mem_some] at hu
      subst hu
      rcases hstamp t ht with ht | rfl
      · exact hbefore t ht c List.mem_cons_self
      · exact NotAfter.refl _
    · rcases hstamp t ht with ht | rfl
      · exact hbefore t ht d (List.mem_cons_of_mem c hd)
      · exact hlater d hd

/-- The times of the record are in order after all requests. -/
theorem timely_after {r : PhaseRecord} {cs : List Request} (htime : InTime cs)
    (h : Precedes r cs) : Timely (after r cs) := by
  induction cs generalizing r with
  | nil => exact h.1
  | cons c cs ih => exact ih (List.pairwise_cons.mp htime).2 (precedes_ask htime h)

/-- A record that precedes the requests precedes the first of them. -/
theorem Precedes.take {r : PhaseRecord} {done cs : List Request} (hdone : done <+: cs)
    (h : Precedes r cs) : Precedes r done :=
  ⟨h.1, fun t ht c hc => h.2 t ht c (hdone.subset hc)⟩

/-- After any sequence of requests the record says what the last one told, and each request has
returned whether it told something else than what stood. The update has the time of the last request
that was granted, the transition that of the last one that told another name, and the requests that
were not granted might as well not have been made. If the requests come in the order of their times,
the times in the record are in order all along. -/
theorem stamped (r : PhaseRecord) (cs : List Request) :
    (∀ c ∈ cs.getLast?, wording (after r cs) = c.told) ∧
    answers r cs = List.zipWith (fun stood c => decide (stood ≠ c.told)) (standing r cs) cs ∧
    (after r cs).lastUpdate = latest (granted r cs) r.lastUpdate ∧
    (after r cs).lastTransition = latest (moved r cs) r.lastTransition ∧
    after r (granted r cs) = after r cs ∧
    (InTime cs → StartsBefore r cs → ∀ done, done <+: cs → Timely (after r done)) := by
  refine ⟨wording_after r cs, answers_eq r cs, lastUpdate_after r cs, lastTransition_after r cs,
    after_granted r cs, ?_⟩
  intro htime hstart done hdone
  exact timely_after (htime.sublist hdone.sublist) (hstart.precedes.take hdone)

/-- A full hour of a day, on a clock with the given offset in hours. -/
def oClock (hour : Nat) (offset : Int) : Moment :=
  ⟨⟨2024, 1, 31⟩, hour * 3600 * Moment.second, some (offset * 3600 * Moment.second)⟩

/-- A resource that has been waiting for a retry. -/
def waiting : PhaseRecord where
  name := .text "Configuring"
  message := .text "no registry"
  lastTransition := some (oClock 1 0)
  lastUpdate := some (oClock 3 1)

/-- The failure once more, another one, success, and the first failure again, told twice. -/
def backAndForth : List Request :=
  [⟨⟨"Configuring", "no registry"⟩, oClock 3 0⟩, ⟨⟨"Configuring", "no package"⟩, oClock 5 2⟩,
    ⟨⟨"Succeeded", ""⟩, oClock 4 0⟩, ⟨⟨"Configuring", "no package"⟩, oClock 4 0⟩,
    ⟨⟨"Configuring", "no registry"⟩, oClock 6 0⟩, ⟨⟨"Configuring", "no registry"⟩, oClock 7 0⟩]

/-- The update has the time of the last message that was new, the transition that of the return to the
phase. -/
theorem stamped_back_and_forth :
    InTime backAndForth ∧ StartsBefore waiting backAndForth ∧
      answers waiting backAndForth = [false, true, true, true, true, false] ∧
      (after waiting backAndForth).lastUpdate = some (oClock 6 0) ∧
      (after waiting backAndForth).lastTransition = some (oClock 4 0) ∧
      ∀ done, done <+: backAndForth → Timely (after waiting done) := by
  have htime : InTime backAndForth := by decide
  have hstart : StartsBefore waiting backAndForth :=
    .inr ⟨_, _, rfl, rfl, by decide, by decide⟩
  obtain ⟨-, hanswers, hupdate, htransition, -, htimely⟩ := stamped waiting backAndForth
  exact ⟨htime, hstart, hanswers.trans (by decide), hupdate.trans (by decide),
    htransition.trans (by decide), htimely htime hstart⟩

end CatalogOperator.Proofs.Status
