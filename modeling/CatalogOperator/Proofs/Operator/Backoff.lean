import CatalogOperator.Proofs.Operator.Freshness

/-!
# `CatalogOperator.Proofs.Operator.Backoff`: when a failed key is tried again

A reconcile that fails starts a timer for its key, and the delay doubles with each failure in a row.
As long as nothing asks for the key, it is on its way at most once: it is dirty, or being processed,
or delayed. So the next reconcile begins when the timer has fallen due, and no earlier.

But something does ask for the key after a failure. The failed attempt writes its message into the
status, the store announces the change, and the event of an object asks for its key, whoever changed
the object. The next reconcile begins at once, unless the message was there before.

* `Course`: the standings that a key goes through. `History.course`: those of a history.
* `Resting`: the standings of a key between a failure and the next reconcile, if nothing asks for the
  key. `Course.passed`: the next reconcile begins when the backoff delay has passed.
* `History.underway_of_changed`: a change stays on its way until a reconcile begins.
* `retried_after_backoff`: both together, for an operator that has been started.
* `BacksOff`: the bound without any condition on what is asked for, of an operator that is left alone.
  `not_backsOff_failing` refutes it.
-/

set_option autoImplicit false

namespace CatalogOperator.Proofs.Operation

open Queue Reconcile

/-! ### Failures in a row, and delays -/

/-- The number of failures in a row of a key at the end of a history, given their number at its
beginning. -/
def streak (k : ObjectKey) (n : Nat) (h : List Happening) : Nat :=
  h.foldl (fun n e =>
    match e with
    | .ended _ k' r => if k' = k then failuresAfter n r else n
    | _ => n) n

/-- Whether a delay that begins at one time has passed at another one. A delay that is no finite
number never passes, unless it is below zero. -/
def Passed (delay : Number) (start now : Rat) : Prop :=
  delay.isAtMostZero = true ∨ ∃ x, delay.toRat? = some x ∧ start + x ≤ now

/-- The delay that the settings ask for after a failure of a key, given the number of failures in a
row before it: the base delay doubled as many times, but not more than the greatest delay. -/
def delay? (config : OperatorConfig) (k : ObjectKey) (failures : Nat) : Option Number :=
  let settings := if k.kind = .text Kind.operatorSource then config.sources else config.catalogs
  ((Number.float settings.baseDelay).doubled failures).map fun d =>
    d.min (.float settings.maxDelay)

section

variable {k : ObjectKey} {n : Nat} {h h' : List Happening}

/-- The failures in a row are counted on from one part of a history to the next. -/
theorem streak_append : streak k n (h ++ h') = streak k (streak k n h) h' :=
  List.foldl_append

/-- Only what is about a key counts for its failures. -/
theorem streak_about : streak k n (about (· = k) h) = streak k n h := by
  induction h generalizing n with
  | nil => rfl
  | cons e rest ih =>
    have hone : streak k n (about (· = k) [e]) = streak k n [e] := by
      cases e with
      | ended t k' r =>
        by_cases hk : k' = k
        · simp [about, Happening.queued?, hk]
        · simp [about, Happening.queued?, streak, hk]
      | changed k' => rfl
      | asked k' => by_cases hk : k' = k <;> simp [about, Happening.queued?, streak, hk]
      | began t k' => by_cases hk : k' = k <;> simp [about, Happening.queued?, streak, hk]
    rw [show e :: rest = [e] ++ rest from rfl, about_append, streak_append, streak_append, hone, ih]

/-- A delay that has passed stays so. -/
theorem Passed.mono {delay : Number} {start now now' : Rat} (h : Passed delay start now)
    (hle : now ≤ now') : Passed delay start now' := by
  rcases h with hzero | ⟨x, hx, hdue⟩
  · exact .inl hzero
  · exact .inr ⟨x, hx, hdue.trans hle⟩

end

/-! ### Courses -/

section

variable {backoff : Nat → Option Number} {k : ObjectKey}

/-- What becomes of the standing of a key as time passes. -/
inductive Course (backoff : Nat → Option Number) (k : ObjectKey) (now₀ : Rat)
    (s₀ : Standing ObjectKey) : List Happening → Rat → Standing ObjectKey → Prop
  | refl : Course backoff k now₀ s₀ [] now₀ s₀
  | step {ls ls' : List Happening} {now now' : Rat} {s s' : Standing ObjectKey} :
    Course backoff k now₀ s₀ ls now s → now ≤ now' → Shift now' backoff k s ls' s' →
    Course backoff k now₀ s₀ (ls ++ ls') now' s'

variable {now₀ now now' : Rat} {s₀ s s' : Standing ObjectKey} {ls ls' : List Happening}

/-- Time passes without anything happening. -/
theorem Course.wait (h : Course backoff k now₀ s₀ ls now s) (hle : now ≤ now') :
    Course backoff k now₀ s₀ ls now' s := by
  rw [← List.append_nil ls]
  exact h.step hle .none

/-- A course goes on with shifts that take no time. -/
theorem Course.shifts (h : Course backoff k now₀ s₀ ls now s)
    (hs : Shifts now backoff k s ls' s') : Course backoff k now₀ s₀ (ls ++ ls') now s' := by
  induction hs with
  | refl => rwa [List.append_nil]
  | step _ hshift ih =>
    rw [← List.append_assoc]
    exact ih.step Rat.le_refl hshift

/-- In a shift, at most one thing happens. -/
theorem Shift.eq_nil_or_singleton (h : Shift now backoff k s ls s') : ls = [] ∨ ∃ e, ls = [e] := by
  cases h with
  | none => exact .inl rfl
  | fired => exact .inl rfl
  | missed => exact .inr ⟨_, rfl⟩
  | asked => exact .inr ⟨_, rfl⟩
  | began => exact .inr ⟨_, rfl⟩
  | ended => exact .inr ⟨_, rfl⟩

/-- What happens on a course happens in one of its shifts. -/
theorem Course.exists_shift {e : Happening}
    (h : Course backoff k now₀ s₀ (ls ++ e :: ls') now s) :
    ∃ now₁ s₁ now₂ s₂, Course backoff k now₀ s₀ ls now₁ s₁ ∧ now₁ ≤ now₂ ∧
      Shift now₂ backoff k s₁ [e] s₂ ∧ Course backoff k now₂ s₂ ls' now s := by
  generalize hall : ls ++ e :: ls' = all at h
  induction h generalizing ls' with
  | refl => simp at hall
  | @step l l' t t' u u' hcourse hle hshift ih =>
    rcases hshift.eq_nil_or_singleton with rfl | ⟨x, rfl⟩
    · -- The last shift is silent, so it belongs to what follows.
      rw [List.append_nil] at hall
      obtain ⟨now₁, s₁, now₂, s₂, h₁, hle₁, h₂, h₃⟩ := ih hall
      refine ⟨now₁, s₁, now₂, s₂, h₁, hle₁, h₂, ?_⟩
      rw [← List.append_nil ls']
      exact h₃.step hle hshift
    · rcases List.eq_nil_or_concat ls' with rfl | ⟨m, y, rfl⟩
      · -- The last shift is the one.
        obtain ⟨rfl, rfl⟩ : ls = l ∧ e = x := by simpa using List.append_inj' hall rfl
        exact ⟨t, u, t', u', hcourse, hle, hshift, .refl⟩
      · have hsplit : (ls ++ e :: m) ++ [y] = l ++ [x] := by simpa using hall
        obtain ⟨hl, hx⟩ := List.append_inj' hsplit rfl
        cases hx
        obtain ⟨now₁, s₁, now₂, s₂, h₁, hle₁, h₂, h₃⟩ := ih hl
        exact ⟨now₁, s₁, now₂, s₂, h₁, hle₁, h₂, by simpa using h₃.step hle hshift⟩

/-! ### Failures along a course -/

/-- What happens in a shift tells the failures that are recorded after it. -/
theorem Shift.failures (h : Shift now backoff k s ls s') :
    s'.failures = streak k s.failures ls := by
  cases h with
  | ended r _ hend =>
    have hone : streak k s.failures [.ended now k r] = failuresAfter s.failures r := by
      simp [streak]
    rw [hone]
    cases hend with
    | counted => rfl
    | postponed hr hp =>
      rw [failuresAfter_of_retried hr]
      cases hp <;> rfl
  | _ => rfl

/-- The failures that are recorded at the end of a course are those in a row. -/
theorem Course.failures (h : Course backoff k now₀ s₀ ls now s) :
    s.failures = streak k s₀.failures ls := by
  induction h with
  | refl => rfl
  | step _ _ hshift ih => rw [hshift.failures, ih, streak_append]

/-! ### Keys that are on their way once -/

/-- How many times a key is on its way: dirty, being processed, or delayed. -/
def Standing.count (s : Standing ObjectKey) : Nat :=
  s.dirty.toNat + s.processing.toNat + s.timers.length

/-- As long as nothing asks for a key, it does not get on its way once more. -/
theorem Shift.count_le_one (h : Shift now backoff k s ls s') (hs : Standing.count s ≤ 1)
    (hasked : .asked k ∉ ls) : Standing.count s' ≤ 1 := by
  unfold Standing.count at hs ⊢
  cases h with
  | none => exact hs
  | missed => exact hs
  | asked => exact absurd (List.mem_singleton_self _) hasked
  | fired t hmem =>
    -- The key was delayed and is dirty now.
    have hlength := List.length_erase_of_mem hmem
    have hpos := List.length_pos_of_mem hmem
    simp only [hlength, Bool.toNat_true]
    omega
  | began hdirty hprocessing =>
    rw [hdirty, hprocessing] at hs
    simpa using hs
  | ended r hprocessing hend =>
    -- The key was being processed and nowhere else, so there is room for one retry.
    rw [hprocessing] at hs
    have hrest : s.dirty.toNat = 0 ∧ s.timers.length = 0 := by
      rw [Bool.toNat_true] at hs
      omega
    cases hend with
    | counted => simp [hrest]
    | postponed _ hp => cases hp <;> simp [hrest]

/-- A key that nobody asks for stays on its way at most once. -/
theorem Course.count_le_one (h : Course backoff k now₀ s₀ ls now s) (hs : Standing.count s₀ ≤ 1)
    (hasked : .asked k ∉ ls) : Standing.count s ≤ 1 := by
  induction h with
  | refl => exact hs
  | step _ _ hshift ih =>
    rw [List.mem_append, not_or] at hasked
    exact hshift.count_le_one (ih hasked.1) hasked.2

/-! ### Between a failure and the next reconcile -/

/-- How a key stands after a failure, given the delay that follows the failure and the time of the
failure: it is not processed, it is dirty only if the delay has passed, and its timers fall due when
the delay passes. -/
structure Resting (delay : Option Number) (start now : Rat) (s : Standing ObjectKey) : Prop where
  processing : s.processing = false
  dirty : s.dirty = true → ∃ d, delay = some d ∧ Passed d start now
  timers : ∀ u ∈ s.timers, ∃ d, delay = some d ∧ u.due = d.toRat?.map (start + ·)

variable {delay : Option Number} {start : Rat}

/-- A key that fails, and was on its way only once, rests. -/
theorem Shift.rests {r : Except Fault Bool} {t : Rat}
    (h : Shift now backoff k s [.ended t k r] s') (hs : Standing.count s ≤ 1) (hr : Retried r) :
    t = now ∧ Resting (backoff s.failures) t now s' := by
  unfold Standing.count at hs
  cases h with
  | ended _ hprocessing hend =>
    rw [hprocessing, Bool.toNat_true] at hs
    -- The key is being processed, so it is on its way in no other form.
    have hdirty : s.dirty = false := by
      cases hd : s.dirty with
      | false => rfl
      | true =>
        rw [hd, Bool.toNat_true] at hs
        omega
    have htimers : s.timers = [] := List.length_eq_zero_iff.mp (by omega)
    refine ⟨rfl, ?_⟩
    cases hend with
    | counted hnot => exact absurd hr hnot
    | postponed _ hp =>
      cases hp with
      | dropped =>
        exact ⟨rfl, fun h => by simp [hdirty] at h, fun u hu => by simp [htimers] at hu⟩
      | added d hd hzero =>
        exact ⟨rfl, fun _ => ⟨d, hd, .inl hzero⟩, fun u hu => by simp [htimers] at hu⟩
      | delayed d hd =>
        refine ⟨rfl, fun h => by simp [hdirty] at h, fun u hu => ⟨d, hd, ?_⟩⟩
        simp only [htimers, List.nil_append, List.mem_singleton] at hu
        rw [hu]

/-- A key that rests goes on to rest until it is asked for or a reconcile of it begins. -/
theorem Shift.resting (h : Shift now' backoff k s ls s') (hle : now ≤ now')
    (hr : Resting delay start now s) (hasked : .asked k ∉ ls) (hbegan : ∀ t, .began t k ∉ ls) :
    Resting delay start now' s' := by
  have hdirty : s.dirty = true → ∃ d, delay = some d ∧ Passed d start now' := by
    intro hd
    obtain ⟨d, hd, hp⟩ := hr.dirty hd
    exact ⟨d, hd, hp.mono hle⟩
  cases h with
  | none => exact ⟨hr.processing, hdirty, hr.timers⟩
  | missed => exact ⟨hr.processing, hdirty, hr.timers⟩
  | asked => exact absurd (List.mem_singleton_self _) hasked
  | fired t hmem hdue =>
    refine ⟨hr.processing, fun _ => ?_, fun u hu => hr.timers u (List.mem_of_mem_erase hu)⟩
    obtain ⟨d, hd, ht⟩ := hr.timers t hmem
    obtain ⟨due, hsome, hdue⟩ := hdue
    obtain ⟨x, hx, rfl⟩ := Option.map_eq_some_iff.mp (ht.symm.trans hsome)
    exact ⟨d, hd, .inr ⟨x, hx, hdue⟩⟩
  | began => exact absurd (List.mem_singleton_self _) (hbegan _)
  | ended _ hprocessing => simp [hr.processing] at hprocessing

/-- A key that nobody asks for rests until a reconcile of it begins. -/
theorem Course.resting (h : Course backoff k now₀ s₀ ls now s)
    (hr : Resting delay start now₀ s₀) (hasked : .asked k ∉ ls) (hbegan : ∀ t, .began t k ∉ ls) :
    Resting delay start now s := by
  induction h with
  | refl => exact hr
  | step _ hle hshift ih =>
    simp only [List.mem_append, not_or] at hasked hbegan
    exact hshift.resting hle (ih hasked.1 fun t => (hbegan t).1) hasked.2 fun t => (hbegan t).2

/-- Along a course on which nothing asks for the key, the next reconcile after a failure begins when
the backoff delay has passed. -/
theorem Course.passed {pre mid post : List Happening} {t t' : Rat} {r : Except Fault Bool}
    (h : Course backoff k now₀ s₀ (pre ++ .ended t k r :: (mid ++ .began t' k :: post)) now s)
    (hs : Standing.count s₀ ≤ 1) (hasked : .asked k ∉ pre ++ mid) (hbegan : ∀ u, .began u k ∉ mid)
    (hr : Retried r) :
    ∃ delay, backoff (streak k s₀.failures pre) = some delay ∧ Passed delay t t' := by
  rw [List.mem_append, not_or] at hasked
  obtain ⟨_, s₁, _, s₂, hpre, -, hended, hrest⟩ := h.exists_shift
  obtain ⟨rfl, hresting⟩ := hended.rests (hpre.count_le_one hs hasked.1) hr
  obtain ⟨_, s₃, _, _, hmid, hle, hnext, -⟩ := hrest.exists_shift
  have hresting := hmid.resting hresting hasked.2 hbegan
  rw [hpre.failures] at hresting
  cases hnext with
  | began hdirty =>
    obtain ⟨d, hd, hp⟩ := hresting.dirty hdirty
    exact ⟨d, hd, hp.mono hle⟩

end

/-! ### The course of a key in a history -/

section

variable {δ : Type} {ns : String} {k : ObjectKey} {o₀ o o' : Operator δ} {h : List Happening}

/-- In a history, the key of a managed resource goes through a course at its controller. -/
theorem History.course {i : Nat} {c₀ : Controller δ} (hw : Wired ns o₀) (hh : History o₀ h o)
    (hc₀ : o₀.controllers[i]? = some c₀) (hkind : k.kind = .text c₀.kind) :
    ∃ c, o.controllers[i]? = some c ∧ SameOffice c₀ c ∧
      Course c₀.queue.backoff? k o₀.now (standing c₀.queue k) (about (· = k) h) o.now
        (standing c.queue k) := by
  induction hh with
  | nil => exact ⟨c₀, hc₀, .refl c₀, .refl⟩
  | @snoc h hs o o' hh hstep ih =>
    obtain ⟨c, hc, hoffice, hcourse⟩ := ih
    have hwired := hh.wired hw
    obtain ⟨c', hc', hturns⟩ := (hstep.turns hwired).turns i c hc
    refine ⟨c', hc', hoffice.trans hturns.sameOffice, ?_⟩
    have hshifts := hturns.shifts (hwired.staffed c (List.mem_of_getElem? hc)) k
    rw [about_about fun k' hk' => ?_, funext hoffice.backoff] at hshifts
    · rw [about_append]
      exact (hcourse.shifts hshifts).wait (hstep.frame hwired).2
    · simp only [decide_eq_true_eq] at hk'
      simp [ofKind, hk', hkind, hoffice.kind]

variable {cluster : Cluster δ} {D : Deployer δ} {config : OperatorConfig} {o₁ : Operator δ}

/-- The bounds of the backoff are those of the settings. -/
theorem backoff?_of_start
    (hstart : Operator.start.runOn (Operator.init cluster D config) = (o₁, .ok ()))
    {c : Controller δ} (hc : c ∈ o₁.controllers) (hkind : k.kind = .text c.kind) (n : Nat) :
    c.queue.backoff? n = delay? config k n := by
  unfold delay?
  rcases opened_of_start hstart hc with ho | ho
  · rw [ho.queue, hkind, ho.kind]
    rfl
  · rw [ho.queue, hkind, ho.kind]
    rfl

/-! ### An operator that is left alone -/

/-- What has happened on the way from one state of an operator to a later one if nobody else has done
anything. -/
inductive Alone (o₀ : Operator δ) : List Happening → Operator δ → Prop
  | nil : Alone o₀ [] o₀
  | act {h hs : List Happening} {o : Operator δ} (m : Move) : Alone o₀ h o → Acts o m hs →
    Alone o₀ (h ++ hs) (o.step m)

/-- An operator that is left alone has a history. -/
theorem Alone.history (ha : Alone o₀ h o) : History o₀ h o := by
  induction ha with
  | nil => exact .nil
  | act m _ hacts ih => exact ih.snoc (.act m hacts)

/-! ### Attempts that fail at once -/

/-- Whether a step is a whole reconcile of a key, which fails. -/
def failsAtOnce (o : Operator δ) (m : Move) (k : ObjectKey) : Bool :=
  match stretch? o m with
  | some ⟨k', true, .finished _ (.ok true)⟩ => k' = k
  | _ => false

/-- Such a reconcile begins and ends in the same step, and in between it may change objects. -/
theorem Faithful.acts_of_failsAtOnce {m : Move} (hf : Faithful o) (hcan : o.canStep m = true)
    (hfails : failsAtOnce o m k = true) :
    ∃ changes : List (Notice Nat), Acts o m (.began o.now k ::
      (changes.map (fun n => .changed n.key) ++ [.ended o.now k (.ok true)])) := by
  unfold failsAtOnce at hfails
  split at hfails
  · next k' s' hs =>
    obtain rfl : k' = k := by simpa using hfails
    exact hf.acts_stretch hcan hs
  · cases hfails

/-- A reconcile that fails at once is one more step of an operator that is left alone. -/
theorem Alone.attempt {m : Move} (hw : Wired ns o₀) (hf : Faithful o₀) (ha : Alone o₀ h o)
    (hcan : o.canStep m = true) (hfails : failsAtOnce o m k = true) :
    ∃ changes : List (Notice Nat), Alone o₀ (h ++ .began o.now k ::
      (changes.map (fun n => .changed n.key) ++ [.ended o.now k (.ok true)])) (o.step m) := by
  obtain ⟨changes, hacts⟩ := (ha.history.faithful hw hf).acts_of_failsAtOnce hcan hfails
  exact ⟨changes, ha.act m hacts⟩

/-- A catalog source config that is being configured, with a message in its phase. -/
def stuck (message : String) : CatalogSourceConfig where
  name := .text "c"
  ns := .text "openshift-marketplace"
  spec := { targetNamespace := .text "t", packages := .text "p" }
  phase := { name := .text Phase.configuring.text, message := .text message }
  packages := []

/-- A deployer that fails all the time, always with the same message. -/
def failing : Deployer Unit where
  ensure _ r := .pure (r, .error (.systemFailure "refused"))
  populate r c := (c, r, .ok ())

/-- The failing deployer leaves the store alone. -/
theorem worksThroughStore_failing : WorksThroughStore failing :=
  worksThroughStore_of_pure (fun _ _ => rfl) fun _ _ => rfl

/-- An operator that has just been started over a store with this catalog source config. -/
def launched (message : String) : Operator Unit :=
  (Operator.start.runOn (Operator.init (holding (stuck message) ()).cluster failing plainConfig)).1

/-- The same operator once it has been told of the catalog source config. -/
def briefed (message : String) : Operator Unit :=
  (launched message).step .route

/-- The operator starts without an error. -/
theorem start_launched (message : String) :
    Operator.start.runOn (Operator.init (holding (stuck message) ()).cluster failing plainConfig) =
      (launched message, .ok ()) :=
  rfl

/-- The catalog source config stands under its own key. -/
theorem filed_stuck (message : String) : (holding (stuck message) ()).cluster.store.Filed :=
  filed_holding (stuck message) () rfl

/-- The operator is at work once it has been started. -/
theorem wired_launched (message : String) : Wired plainConfig.ns (launched message) :=
  wired_of_start (start_launched message) (filed_stuck message) rfl rfl

/-- What the operator is about to do works through the store. -/
theorem faithful_launched (message : String) : Faithful (launched message) :=
  faithful_of_start (start_launched message) worksThroughStore_failing

/-- The event of the object is the first thing that the operator handles. -/
theorem history_briefed (message : String) :
    History (launched message) ((asks (launched message) .route).map .asked) (briefed message) :=
  .snoc .nil (.act .route (.pass rfl rfl))

/-- The operator is at work after it has been told of the catalog source config. -/
theorem wired_briefed (message : String) : Wired plainConfig.ns (briefed message) :=
  (history_briefed message).wired (wired_launched message)

/-- What the operator is about to do then works through the store. -/
theorem faithful_briefed (message : String) : Faithful (briefed message) :=
  (history_briefed message).faithful (wired_launched message) (faithful_launched message)

/-- An operator that has failed once to configure the catalog source config, and whose timer has fired
a second later. -/
def recalled : Operator Unit :=
  (((briefed "refused").step (.work 0 0)).step (.tick 1)).step (.fire 0)

/-- An operator that has failed once to configure the catalog source config, and has handled the event
of its own change of the status. -/
def reminded : Operator Unit :=
  ((briefed "").step (.work 0 0)).step .route

/-! ### When the next reconcile begins -/

/-- If the key was on its way at most once at some time and nothing has asked for it since, the next
reconcile after a failed one begins no earlier than after its backoff delay. What happened before that
time counts for the failures in a row. -/
theorem History.passed
    (hstart : Operator.start.runOn (Operator.init cluster D config) = (o₁, .ok ()))
    (hw : Wired config.ns o₁) (hm : Managed config.ns k) {h₀ pre mid post : List Happening}
    {t t' : Rat} {r : Except Fault Bool} (hh₀ : History o₁ h₀ o₀)
    (hcount : ∀ c ∈ o₀.controllers, Standing.count (standing c.queue k) ≤ 1)
    (hh : History o₀ (pre ++ .ended t k r :: (mid ++ .began t' k :: post)) o)
    (hasked : .asked k ∉ pre ++ mid) (hbegan : ∀ u, .began u k ∉ mid) (hr : Retried r) :
    ∃ delay, delay? config k (streak k 0 (h₀ ++ pre)) = some delay ∧ Passed delay t t' := by
  -- The same controller is followed from the start to the next reconcile.
  obtain ⟨kind, i, hkind, hi, -⟩ := hw.served.controllerOf? hm
  obtain ⟨c₁, hc₁, rfl⟩ := exists_of_controllerOf? hi
  obtain ⟨c₀, hc₀, hoffice, hbefore⟩ := hh₀.course hw hc₁ hkind
  obtain ⟨c, -, -, hcourse⟩ := hh.course (hh₀.wired hw) hc₀ (hoffice.kind ▸ hkind)
  have habout : about (· = k) (pre ++ .ended t k r :: (mid ++ .began t' k :: post)) =
      about (· = k) pre ++ .ended t k r :: (about (· = k) mid ++ .began t' k :: about (· = k) post) := by
    simp [about, Happening.queued?]
  rw [habout] at hcourse
  have hpassed := hcourse.passed (hcount c₀ (List.mem_of_getElem? hc₀))
    (fun hmem => hasked (mem_of_mem_about (about_append ▸ hmem)))
    (fun u hu => hbegan u (mem_of_mem_about hu)) hr
  rw [hbefore.failures, standing_of_start hstart (List.mem_of_getElem? hc₁), streak_about, streak_about,
    ← streak_append, hoffice.backoff,
    backoff?_of_start hstart (List.mem_of_getElem? hc₁) hkind] at hpassed
  exact hpassed

/-- A change of an object is on its way to a reconcile until one begins. -/
theorem History.underway_of_changed (hw : Wired ns o₀) (hm : Managed ns k) (hh : History o₀ h o)
    {pre post : List Happening} (hsplit : h = pre ++ .changed k :: post)
    (hbegan : ∀ u, .began u k ∉ post) : Underway k o := by
  induction hh generalizing pre post with
  | nil => simp at hsplit
  | @snoc h hs o o' hh hstep ih =>
    have hwired := hh.wired hw
    by_cases hchanged : .changed k ∈ hs
    · exact .inl (hstep.announced hwired hchanged)
    · -- The change came before this step, and no reconcile begins in it.
      obtain ⟨rest, rfl, rfl⟩ : ∃ rest, h = pre ++ .changed k :: rest ∧ post = rest ++ hs := by
        rcases List.append_eq_append_iff.mp hsplit with ⟨late, -, rfl⟩ | ⟨late, rfl, hlate⟩
        · simp at hchanged
        · cases late with
          | nil => simp [← show _ = hs from hlate] at hchanged
          | cons e rest =>
            obtain ⟨rfl, rfl⟩ := List.cons.inj hlate
            exact ⟨rest, rfl, rfl⟩
      simp only [List.mem_append, not_or] at hbegan
      rcases ih rfl fun u => (hbegan u).1 with hannounced | hdirty
      · exact hstep.announced_or_dirty hwired hm hannounced
      · exact .inr (hstep.dirty hwired hdirty (hbegan _).2)

/-- What decides when the next reconcile of a managed resource begins at an operator that has been
started. After a failed reconcile it begins no earlier than after the backoff delay, provided that the
key was on its way at most once at some time before and nothing has asked for it since. But once the
object has changed, be it by the status that the failed reconcile itself has written, the key is dirty
as soon as no event waits any more, however long the delay, and until the next reconcile begins. -/
theorem retried_after_backoff (hfiled : cluster.store.Filed)
    (hsub : cluster.store.subscriptions = []) (hfeed : cluster.feed = {})
    (hstart : Operator.start.runOn (Operator.init cluster D config) = (o₁, .ok ()))
    (hm : Managed config.ns k) :
    (∀ (h₀ pre mid post : List Happening) (t t' : Rat) (r : Except Fault Bool) (o₀ o : Operator δ),
      History o₁ h₀ o₀ → (∀ c ∈ o₀.controllers, Standing.count (standing c.queue k) ≤ 1) →
      History o₀ (pre ++ .ended t k r :: (mid ++ .began t' k :: post)) o → .asked k ∉ pre ++ mid →
      (∀ u, .began u k ∉ mid) → Retried r →
      ∃ delay, delay? config k (streak k 0 (h₀ ++ pre)) = some delay ∧ Passed delay t t') ∧
    (∀ (pre post : List Happening) (o : Operator δ), History o₁ (pre ++ .changed k :: post) o →
      (∀ u, .began u k ∉ post) → o.feed.events = [] → DirtyAt k o) := by
  have hw := wired_of_start hstart hfiled hsub hfeed
  refine ⟨fun h₀ pre mid post t t' r o₀ o hh₀ hcount hh hasked hbegan hr =>
    hh₀.passed hstart hw hm hcount hh hasked hbegan hr, fun pre post o hh hbegan hevents => ?_⟩
  rcases hh.underway_of_changed hw hm rfl hbegan with ⟨e, he, -⟩ | hdirty
  · rw [hevents] at he
    cases he
  · exact hdirty

/-- A failure that leaves the message of the catalog source config as it is is followed by the next
attempt after the delay. One that changes the message is not: the key is dirty at once. -/
theorem retried_after_backoff_by_message :
    (∃ h₀ pre post o, History (launched "refused") h₀ (briefed "refused") ∧
      History (briefed "refused") (pre ++ .ended 0 (stuck "refused").key (.ok true) ::
        .began 1 (stuck "refused").key :: post) o ∧
      ∃ delay, delay? plainConfig (stuck "refused").key
        (streak (stuck "refused").key 0 (h₀ ++ pre)) = some delay ∧ Passed delay 0 1) ∧
    reminded.now = 0 ∧ DirtyAt (stuck "").key reminded := by
  constructor
  · have hw := wired_briefed "refused"
    have hf := faithful_briefed "refused"
    obtain ⟨changes, hfailed⟩ := Alone.nil.attempt (m := .work 0 0) (k := (stuck "refused").key) hw hf
      (by decide +kernel) (by decide +kernel)
    have hwaited := hfailed.act (.tick 1) (.pass (by decide +kernel) rfl)
    have hfired : Alone _ _ recalled := hwaited.act (.fire 0) (.pass (by decide +kernel) rfl)
    obtain ⟨changes', hagain⟩ := hfired.attempt (m := .work 0 0) (k := (stuck "refused").key) hw hf
      (by decide +kernel) (by decide +kernel)
    have htime : (briefed "refused").now = 0 := rfl
    have htime' : recalled.now = 1 := by decide +kernel
    rw [htime, htime'] at hagain
    have hh : History (briefed "refused")
        ((.began 0 (stuck "refused").key :: changes.map fun n => .changed n.key) ++
          .ended 0 (stuck "refused").key (.ok true) :: ([] ++ .began 1 (stuck "refused").key ::
            (changes'.map (fun n => .changed n.key) ++
              [.ended 1 (stuck "refused").key (.ok true)]))) (recalled.step (.work 0 0)) := by
      simpa [asks] using hagain.history
    have hretried := (retried_after_backoff (filed_stuck "refused") rfl rfl (start_launched "refused")
      ⟨rfl, .inr rfl⟩).1 _ _ _ _ _ _ _ _ _ (history_briefed "refused") (by decide +kernel) hh
        (by simp) (by simp) rfl
    exact ⟨_, _, _, _, history_briefed "refused", hh, hretried⟩
  · obtain ⟨changes, hacts⟩ := (faithful_briefed "").acts_of_failsAtOnce (m := .work 0 0)
      (k := (stuck "").key) (by decide +kernel) (by decide +kernel)
    have hstep : Step (briefed "") _ _ := .act _ hacts
    have hrouted : Step _ _ reminded := .act .route (.pass (by decide +kernel) rfl)
    have hh := ((history_briefed "").snoc hstep).snoc hrouted
    -- The attempt has changed the object, since another one stands there now.
    obtain ⟨n, hn, hk⟩ : ∃ n ∈ changes, n.key = (stuck "").key := by
      refine Classical.byContradiction fun hnone => ?_
      have hat := hstep.objectAt_eq (k := (stuck "").key) (wired_briefed "") (by simpa using hnone)
      exact absurd hat (by decide +kernel)
    obtain ⟨first, last, rfl⟩ := List.append_of_mem hn
    refine ⟨by decide +kernel, (retried_after_backoff (filed_stuck "") rfl rfl (start_launched "")
      ⟨rfl, .inr rfl⟩).2
        ((asks (launched "") .route).map .asked ++
          .began (briefed "").now (stuck "").key :: first.map fun n => .changed n.key)
        (last.map (fun n => .changed n.key) ++ .ended (briefed "").now (stuck "").key (.ok true) ::
          (asks ((briefed "").step (.work 0 0)) .route).map .asked) _ ?_ ?_ (by decide +kernel)⟩
    · simpa [hk] using hh
    · simp

/-! ### Without that condition -/

/-- Whether the managed resource under a key is being configured. -/
def Configuring (k : ObjectKey) (s : Shared δ) : Prop :=
  (∃ r : OperatorSource, objectAt k s = some r.toManifest ∧ r.phase.isIn .configuring) ∨
    ∃ r : CatalogSourceConfig, objectAt k s = some r.toManifest ∧ r.phase.isIn .configuring

/-- Whether the next reconcile of a key after a failed attempt to configure the resource begins no
earlier than after the backoff delay, as long as nobody but the operator does anything. -/
def BacksOff (config : OperatorConfig) (k : ObjectKey) (o₀ : Operator δ) : Prop :=
  ∀ (before during mid post : List Happening) (began t t' : Rat) (r : Except Fault Bool)
    (seen o : Operator δ), Alone o₀ before seen → Configuring k seen.shared →
      Alone seen (.began began k :: (during ++ .ended t k r :: (mid ++ .began t' k :: post))) o →
      (∀ u r', .ended u k r' ∉ during) → Retried r → (∀ u, .began u k ∉ mid) →
        ∃ delay, delay? config k (streak k 0 before) = some delay ∧ Passed delay t t'

/-- Without resyncs, and with no event pending, the status that a failed attempt writes brings the next
attempt forward: it begins at the same time. -/
theorem not_backsOff_failing :
    plainConfig.catalogs.resyncInterval = none ∧ plainConfig.sources.resyncInterval = none ∧
      (briefed "").feed.events = [] ∧ ¬ BacksOff plainConfig (stuck "").key (briefed "") := by
  refine ⟨rfl, rfl, by decide +kernel, fun hbacksOff => ?_⟩
  have hw := wired_briefed ""
  have hf := faithful_briefed ""
  obtain ⟨changes, hfailed⟩ := Alone.nil.attempt (m := .work 0 0) (k := (stuck "").key) hw hf
    (by decide +kernel) (by decide +kernel)
  have hrouted : Alone _ _ reminded := hfailed.act .route (.pass (by decide +kernel) rfl)
  obtain ⟨changes', hagain⟩ := hrouted.attempt (m := .work 0 0) (k := (stuck "").key) hw hf
    (by decide +kernel) (by decide +kernel)
  have htime : (briefed "").now = 0 := rfl
  have htime' : reminded.now = 0 := by decide +kernel
  rw [htime, htime'] at hagain
  have hconfiguring : Configuring (stuck "").key (briefed "").shared :=
    .inr ⟨stuck "", by decide +kernel, rfl⟩
  obtain ⟨delay, hdelay, hpassed⟩ := hbacksOff [] (changes.map fun n => .changed n.key) _ _ 0 0 0
    (.ok true) _ _ .nil hconfiguring (by simpa using hagain) (by simp) rfl (by simp)
  -- The first failure is followed by the base delay, which is above zero.
  have hbase : (delay? plainConfig (stuck "").key 0).any (fun d =>
      !d.isAtMostZero && d.toRat?.all fun x => decide (0 < x)) = true := by decide +kernel
  rw [show delay? plainConfig (stuck "").key 0 = some delay from hdelay, Option.any_some,
    Bool.and_eq_true] at hbase
  obtain ⟨hnonzero, hpositive⟩ := hbase
  rcases hpassed with hzero | ⟨x, hx, hle⟩
  · simp [hzero] at hnonzero
  · rw [hx, Option.all_some, decide_eq_true_eq] at hpositive
    linarith

end

end CatalogOperator.Proofs.Operation
