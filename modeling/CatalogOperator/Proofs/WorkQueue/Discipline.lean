import CatalogOperator.Proofs.WorkQueue.Desk
import Mathlib.Data.List.Nodup

/-!
# `CatalogOperator.Proofs.WorkQueue.Discipline`: no key is lost, doubled or overtaken

The laws of an open work queue, over every run of `Desk.Run` from a new queue:

* `Orderly`: the invariant that ties the queue, the dirty keys and the keys being processed to the
  history. `Orderly.change` keeps it over one change, `orderly_of_run` over a run.
* `queue_prefix_of_run`: what is queued now is handed out in this order, and before anything that
  enters the queue later.
* `queue_discipline`: the laws together, with the promise for workers that keep going: a key that
  was added is handed out some time.
-/

set_option autoImplicit false

namespace CatalogOperator.Proofs.Queue

variable {κ ω : Type}

/-! ### Keys that were added and not handed out since -/

/-- The key was added since it was last handed out, if it ever was. -/
def AddedSinceHandout (es : List (QueueEvent κ ω)) (k : κ) : Prop :=
  ∃ before after, es = before ++ .added k :: after ∧ ∀ w, .handed w k ∉ after

/-- Nothing was added before anything happened. -/
theorem not_addedSinceHandout_nil (k : κ) : ¬ AddedSinceHandout ([] : List (QueueEvent κ ω)) k := by
  rintro ⟨before, after, h, -⟩
  simp at h

/-- One more event adds the key, or leaves what was so and is no handout of the key. -/
theorem addedSinceHandout_concat (es : List (QueueEvent κ ω)) (e : QueueEvent κ ω) (k : κ) :
    AddedSinceHandout (es ++ [e]) k ↔
      e = .added k ∨ (AddedSinceHandout es k ∧ ∀ w, e ≠ .handed w k) := by
  constructor
  · rintro ⟨before, after, h, hno⟩
    -- The last addition of the key is the new event or an earlier one.
    rcases List.eq_nil_or_concat after with rfl | ⟨after, e', rfl⟩
    · left
      exact (List.cons.inj (List.append_inj' h rfl).2).1
    · right
      rw [List.concat_eq_append] at h hno
      rw [← List.cons_append, ← List.append_assoc] at h
      obtain ⟨hes, he⟩ := List.append_inj' h rfl
      obtain ⟨rfl, -⟩ := List.cons.inj he
      refine ⟨⟨before, after, hes, fun w hw => hno w (by simp [hw])⟩, fun w hw => hno w ?_⟩
      simp [hw]
  · rintro (rfl | ⟨⟨before, after, rfl, hno⟩, hne⟩)
    · exact ⟨es, [], rfl, by simp⟩
    · refine ⟨before, after ++ [e], by simp, fun w hw => ?_⟩
      rcases List.mem_append.mp hw with hw | hw
      · exact hno w hw
      · exact hne w (List.mem_singleton.mp hw).symm

/-! ### The invariant -/

/-- The containers of an open queue after a history: no key is queued twice or processed twice, none
is both queued and processed, and the dirty keys are those added since they were last handed out,
each of which is queued or being processed. -/
structure Orderly (es : List (QueueEvent κ ω)) (c : Containers κ ω) : Prop where
  queue_nodup : c.queue.Nodup
  dirty_nodup : c.dirty.Nodup
  processing_nodup : c.processing.Nodup
  apart : ∀ k ∈ c.queue, k ∉ c.processing
  dirty_of_queued : ∀ k ∈ c.queue, k ∈ c.dirty
  placed : ∀ k ∈ c.dirty, k ∈ c.queue ∨ k ∈ c.processing
  dirty_iff : ∀ k, k ∈ c.dirty ↔ AddedSinceHandout es k
  held_perm : c.processing.Perm (c.held.map (·.2))

/-- A new desk is orderly. -/
theorem orderly_fresh (baseDelay maxDelay : Number) :
    Orderly [] (Desk.fresh baseDelay maxDelay : Desk κ ω).containers where
  queue_nodup := List.nodup_nil
  dirty_nodup := List.nodup_nil
  processing_nodup := List.nodup_nil
  apart := by simp [Desk.fresh, Desk.containers]
  dirty_of_queued := by simp [Desk.fresh, Desk.containers]
  placed := by simp [Desk.fresh, Desk.containers]
  dirty_iff k := by simp [Desk.fresh, Desk.containers, not_addedSinceHandout_nil]
  held_perm := List.Perm.refl _

namespace Orderly

variable {es : List (QueueEvent κ ω)} {c : Containers κ ω}

/-- A key that is added is dirty afterwards, whatever was so before. -/
theorem added_iff (h : Orderly es c) (k k' : κ) :
    AddedSinceHandout (es ++ [.added k]) k' ↔ k' = k ∨ k' ∈ c.dirty := by
  rw [addedSinceHandout_concat, h.dirty_iff]
  constructor
  · rintro (h | ⟨h, -⟩)
    · exact .inl (QueueEvent.added.inj h).symm
    · exact .inr h
  · rintro (rfl | h)
    · exact .inl rfl
    · exact .inr ⟨h, fun w hw => nomatch hw⟩

/-- A dirty key that is added again leaves the containers orderly. -/
theorem coalesced (h : Orderly es c) {k : κ} (hd : k ∈ c.dirty) : Orderly (es ++ [.added k]) c :=
  { h with
    dirty_iff := fun k' => by
      rw [h.added_iff]
      constructor
      · exact .inr
      · rintro (rfl | h)
        · exact hd
        · exact h }

/-- So does a key that is added while it is being processed. -/
theorem marked (h : Orderly es c) {k : κ} (hd : k ∉ c.dirty) (hp : k ∈ c.processing) :
    Orderly (es ++ [.added k]) { c with dirty := c.dirty ++ [k] } :=
  { h with
    dirty_nodup := by simpa using h.dirty_nodup.concat hd
    dirty_of_queued := fun k' hk' => List.mem_append_left _ (h.dirty_of_queued k' hk')
    placed := fun k' hk' => by
      rcases List.mem_append.mp hk' with hk' | hk'
      · exact h.placed k' hk'
      · exact .inr (List.mem_singleton.mp hk' ▸ hp)
    dirty_iff := fun k' => by
      rw [h.added_iff, List.mem_append, List.mem_singleton]
      exact or_comm }

/-- So does a key that is queued. -/
theorem queued (h : Orderly es c) {k : κ} (hd : k ∉ c.dirty) (hp : k ∉ c.processing) :
    Orderly (es ++ [.added k])
      { c with queue := c.queue ++ [k], dirty := c.dirty ++ [k] } := by
  -- What is queued is dirty, so a key that is not dirty is new to both containers.
  have hq : k ∉ c.queue := fun hk => hd (h.dirty_of_queued k hk)
  exact {
    h with
    queue_nodup := by simpa using h.queue_nodup.concat hq
    dirty_nodup := by simpa using h.dirty_nodup.concat hd
    apart := fun k' hk' => by
      rcases List.mem_append.mp hk' with hk' | hk'
      · exact h.apart k' hk'
      · exact List.mem_singleton.mp hk' ▸ hp
    dirty_of_queued := fun k' hk' => by
      rcases List.mem_append.mp hk' with hk' | hk'
      · exact List.mem_append_left _ (h.dirty_of_queued k' hk')
      · exact List.mem_append_right _ hk'
    placed := fun k' hk' => by
      rcases List.mem_append.mp hk' with hk' | hk'
      · exact (h.placed k' hk').imp (List.mem_append_left _) id
      · exact .inl (List.mem_append_right _ hk')
    dirty_iff := fun k' => by
      rw [h.added_iff, List.mem_append, List.mem_singleton]
      exact or_comm }

variable [DecidableEq κ]

/-- So does handing out the first key. -/
theorem handed (h : Orderly es c) {w : ω} {k : κ} {rest : List κ} (hq : c.queue = k :: rest) :
    Orderly (es ++ [.handed w k])
      { queue := rest
        dirty := c.dirty.erase k
        processing := if c.processing.contains k then c.processing else c.processing ++ [k]
        held := c.held ++ [(w, k)] } := by
  have hk : k ∈ c.queue := by simp [hq]
  -- A queued key is not being processed, so it really enters the processing ones.
  have hp : k ∉ c.processing := h.apart k hk
  obtain ⟨hrest, hnodup⟩ := List.nodup_cons.mp (hq ▸ h.queue_nodup)
  have hsub : ∀ k' ∈ rest, k' ∈ c.queue := fun k' hk' => by simp [hq, hk']
  rw [if_neg (by simpa using hp)]
  exact {
    queue_nodup := hnodup
    dirty_nodup := h.dirty_nodup.erase k
    processing_nodup := by simpa using h.processing_nodup.concat hp
    apart := fun k' hk' => by
      have hne : k' ≠ k := fun e => hrest (e ▸ hk')
      simpa [hne] using h.apart k' (hsub k' hk')
    dirty_of_queued := fun k' hk' => by
      have hne : k' ≠ k := fun e => hrest (e ▸ hk')
      exact (List.mem_erase_of_ne hne).mpr (h.dirty_of_queued k' (hsub k' hk'))
    placed := fun k' hk' => by
      obtain ⟨hne, hk'⟩ := (h.dirty_nodup.mem_erase_iff).mp hk'
      rcases h.placed k' hk' with hk' | hk'
      · rw [hq] at hk'
        exact .inl ((List.mem_cons.mp hk').resolve_left hne)
      · exact .inr (List.mem_append_left _ hk')
    dirty_iff := fun k' => by
      rw [h.dirty_nodup.mem_erase_iff, addedSinceHandout_concat, h.dirty_iff]
      constructor
      · rintro ⟨hne, h⟩
        exact .inr ⟨h, fun w' hw => hne (QueueEvent.handed.inj hw).2.symm⟩
      · rintro (h | ⟨h, hne⟩)
        · exact nomatch h
        · exact ⟨fun e => hne w (e ▸ rfl), h⟩
    held_perm := by
      rw [List.map_append]
      exact h.held_perm.append_right [k] }

variable [DecidableEq ω]

/-- So does the report of a key. -/
theorem finished (h : Orderly es c) {w : ω} {k : κ} (hh : (w, k) ∈ c.held) :
    Orderly (es ++ [.finished w k])
      { c with
        queue := if k ∈ c.dirty then c.queue ++ [k] else c.queue
        processing := c.processing.erase k
        held := c.held.erase (w, k) } := by
  -- A held key is being processed and therefore not queued.
  have hp : k ∈ c.processing := h.held_perm.mem_iff.mpr (List.mem_map.mpr ⟨(w, k), hh, rfl⟩)
  have hq : k ∉ c.queue := fun hk => h.apart k hk hp
  have hmem : ∀ k', k' ∈ (if k ∈ c.dirty then c.queue ++ [k] else c.queue) ↔
      k' ∈ c.queue ∨ (k' = k ∧ k ∈ c.dirty) := by
    intro k'
    by_cases hd : k ∈ c.dirty <;> simp [hd]
  exact {
    queue_nodup := by
      by_cases hd : k ∈ c.dirty
      · rw [if_pos hd]
        simpa using h.queue_nodup.concat hq
      · rw [if_neg hd]
        exact h.queue_nodup
    dirty_nodup := h.dirty_nodup
    processing_nodup := h.processing_nodup.erase k
    apart := fun k' hk' hk'' => by
      obtain ⟨hne, hk''⟩ := (h.processing_nodup.mem_erase_iff).mp hk''
      rcases (hmem k').mp hk' with hk' | ⟨e, -⟩
      · exact h.apart k' hk' hk''
      · exact hne e
    dirty_of_queued := fun k' hk' => by
      rcases (hmem k').mp hk' with hk' | ⟨rfl, hd⟩
      · exact h.dirty_of_queued k' hk'
      · exact hd
    placed := fun k' hk' => by
      by_cases e : k' = k
      · exact .inl ((hmem k').mpr (.inr ⟨e, e ▸ hk'⟩))
      · rcases h.placed k' hk' with hk' | hk'
        · exact .inl ((hmem k').mpr (.inl hk'))
        · exact .inr ((h.processing_nodup.mem_erase_iff).mpr ⟨e, hk'⟩)
    dirty_iff := fun k' => by
      rw [addedSinceHandout_concat, h.dirty_iff]
      simp
    held_perm := by
      -- One occurrence of the key goes on either side.
      have hheld := (List.perm_cons_erase hh).map Prod.snd
      have hproc := List.perm_cons_erase hp
      exact List.Perm.cons_inv ((hproc.symm.trans h.held_perm).trans hheld) }

/-- One change keeps the containers in order. -/
theorem change (h : Orderly es c) {fs : List (QueueEvent κ ω)} {c' : Containers κ ω}
    (hc : Change c fs c') : Orderly (es ++ fs) c' := by
  cases hc with
  | quiet => rwa [List.append_nil]
  | coalesced k hd => exact h.coalesced hd
  | marked k hd hp => exact h.marked hd hp
  | queued k hd hp => exact h.queued hd hp
  | handed w k rest hq => exact h.handed hq
  | finished w k hh => exact h.finished hh

end Orderly

variable [DecidableEq κ] [DecidableEq ω]

/-- A run from a new queue keeps the containers in order as long as the queue is open. -/
theorem orderly_of_run {baseDelay maxDelay : Number} {es : List (QueueEvent κ ω)} {d : Desk κ ω}
    (hrun : Desk.Run (.fresh baseDelay maxDelay) es d) (ho : d.queue.closed = false) :
    Orderly es d.containers := by
  induction hrun with
  | refl => exact orderly_fresh baseDelay maxDelay
  | step r hrun hr ih => exact (ih (Desk.open_of_step ho)).change (Desk.step_change hr ho)

/-! ### First come, first served -/

/-- The keys handed out by one change come off the front of the queue, and what enters goes to its
end. -/
theorem queue_prefix_of_change {c c' : Containers κ ω} {fs : List (QueueEvent κ ω)}
    (hc : Change c fs c') : c.queue <+: handedKeys fs ++ c'.queue := by
  cases hc with
  | quiet => exact List.prefix_refl _
  | coalesced k hd => exact List.prefix_refl _
  | marked k hd hp => exact List.prefix_refl _
  | queued k hd hp => exact List.prefix_append _ _
  | handed w k rest hq =>
    rw [hq]
    exact List.prefix_refl _
  | finished w k hh =>
    show c.queue <+: (if k ∈ c.dirty then c.queue ++ [k] else c.queue)
    split
    · exact List.prefix_append _ _
    · exact List.prefix_refl _

/-- Whatever is queued now is handed out in this order, before anything that enters later. -/
theorem queue_prefix_of_run {es : List (QueueEvent κ ω)} {d d' : Desk κ ω}
    (hrun : Desk.Run d es d') (ho : d'.queue.closed = false) :
    d.queue.queue <+: handedKeys es ++ d'.queue.queue := by
  induction hrun with
  | refl => exact List.prefix_refl _
  | @step d' es r hrun hr ih =>
    have hfirst := ih (Desk.open_of_step ho)
    have hnext := queue_prefix_of_change (Desk.step_change hr ho)
    rw [handedKeys_append, List.append_assoc]
    exact hfirst.trans ((List.prefix_append_right_inj _).mpr hnext)

/-! ### Workers that keep going -/

namespace Change

variable {c c' : Containers κ ω} {fs : List (QueueEvent κ ω)}

/-- A change hands out one key at most. -/
theorem handed_or_not (hc : Change c fs c') : handedKeys fs = [] ∨ ∃ w k, fs = [.handed w k] := by
  cases hc with
  | handed w k rest hq => exact .inr ⟨w, k, rfl⟩
  | _ => exact .inl rfl

/-- A dirty key that is reported as processed is queued. -/
theorem queued_of_finished (hc : Change c fs c') {w : ω} {k : κ} (he : fs = [.finished w k])
    (hd : k ∈ c.dirty) : k ∈ c'.queue := by
  cases hc with
  | finished w' k' hh =>
    cases he
    simp [hd]
  | _ => cases he

/-- A dirty key that is being processed stays both, unless it gets queued. -/
theorem kept_or_queued (hc : Change c fs c') {es : List (QueueEvent κ ω)} (h : Orderly es c)
    {k : κ} (hd : k ∈ c.dirty) (hp : k ∈ c.processing) :
    k ∈ c'.queue ∨ (k ∈ c'.dirty ∧ k ∈ c'.processing) := by
  cases hc with
  | quiet => exact .inr ⟨hd, hp⟩
  | coalesced => exact .inr ⟨hd, hp⟩
  | marked k' hd' hp' => exact .inr ⟨List.mem_append_left _ hd, hp⟩
  | queued k' hd' hp' => exact .inr ⟨List.mem_append_left _ hd, hp⟩
  | handed w k' rest hq =>
    -- The key that is handed out was queued, so it is not the one being processed.
    have hne : k ≠ k' := by
      rintro rfl
      exact h.apart k (by simp [hq]) hp
    refine .inr ⟨(List.mem_erase_of_ne hne).mpr hd, ?_⟩
    show k ∈ if c.processing.contains k' then c.processing else c.processing ++ [k']
    split
    · exact hp
    · exact List.mem_append_left _ hp
  | finished w k' hh =>
    by_cases e : k = k'
    · subst e
      exact .inl (by simp [hd])
    · exact .inr ⟨hd, (List.mem_erase_of_ne e).mpr hp⟩

end Change

namespace Desk

/-- A worker that asks a queue with keys in it gets the first one. -/
theorem step_of_asks {d : Desk κ ω} {r : Request κ ω} {w : ω} {k : κ} {rest : List κ}
    (hr : r = .get w ∨ r = .resume w) (hq : d.queue.queue = k :: rest) :
    (d.step r).2 = [.handed w k] := by
  have hget : ∀ q : WorkQueue κ ω, q.queue = k :: rest →
      (d.receive w (q.get w)).2 = [.handed w k] := by
    intro q hq
    rw [WorkQueue.get, hq]
    rfl
  rcases hr with rfl | rfl
  · exact hget d.queue hq
  · exact hget (d.queue.leave w) hq

namespace Schedule

variable {d : Desk κ ω}

/-- The events of one step of an endless run. -/
def events (s : Schedule d) (n : Nat) : List (QueueEvent κ ω) :=
  ((s.desk n).step (s.request n)).2

/-- The queue is never shut down. -/
def Open (s : Schedule d) : Prop :=
  ∀ n, (s.desk n).queue.closed = false

/-- The history of the first steps of an endless run. -/
def history (s : Schedule d) : Nat → List (QueueEvent κ ω)
  | 0 => []
  | n + 1 => s.history n ++ s.events n

/-- Every step of an endless run is a change of its containers. -/
theorem change (s : Schedule d) (ho : s.Open) (n : Nat) :
    Change (s.desk n).containers (s.events n) (s.desk (n + 1)).containers := by
  have hopen := ho (n + 1)
  rw [s.desk_succ] at hopen ⊢
  exact step_change (s.permits n) hopen

/-- The containers are orderly all along an endless run. -/
theorem orderly (s : Schedule d) (ho : s.Open) {es : List (QueueEvent κ ω)}
    (h : Orderly es d.containers) (n : Nat) :
    Orderly (es ++ s.history n) (s.desk n).containers := by
  induction n with
  | zero =>
    rw [s.desk_zero]
    simpa [history] using h
  | succ n ih =>
    rw [history, ← List.append_assoc]
    exact ih.change (s.change ho n)

/-- The first key of the queue is handed out before long. The steps up to the one at which a worker
asks leave it in its place, unless one of them hands it out already. -/
theorem handed_of_first (s : Schedule d) (ho : s.Open) (hf : s.Fair) {n : Nat} {k : κ}
    {rest : List κ} (hq : (s.desk n).queue.queue = k :: rest) :
    ∃ m w, n ≤ m ∧ s.events m = [.handed w k] ∧ rest <+: (s.desk (m + 1)).queue.queue := by
  obtain ⟨m, w, hnm, hask⟩ := hf.asks n (by simp [hq])
  -- The induction is on the number of steps until the worker asks.
  obtain ⟨j, rfl⟩ := Nat.exists_eq_add_of_le hnm
  clear hnm
  induction j generalizing n rest with
  | zero =>
    have he : s.events n = [.handed w k] := step_of_asks hask hq
    have hpre := queue_prefix_of_change (s.change ho n)
    refine ⟨n, w, Nat.le_refl n, he, ?_⟩
    rw [he] at hpre
    have hpre' : k :: rest <+: k :: (s.desk (n + 1)).queue.queue := hq ▸ hpre
    exact (List.cons_prefix_cons.mp hpre').2
  | succ j ih =>
    have hpre := queue_prefix_of_change (s.change ho n)
    have hpre' : k :: rest <+: handedKeys (s.events n) ++ (s.desk (n + 1)).queue.queue := hq ▸ hpre
    rcases (s.change ho n).handed_or_not with hnone | ⟨w', k', he⟩
    · rw [hnone, List.nil_append] at hpre'
      obtain ⟨more, hmore⟩ := hpre'
      have hask' : s.request (n + 1 + j) = .get w ∨ s.request (n + 1 + j) = .resume w := by
        rwa [show n + 1 + j = n + (j + 1) by omega]
      obtain ⟨m, w', hm, he, hrest⟩ := ih hmore.symm hask'
      exact ⟨m, w', by omega, he, (List.prefix_append _ _).trans hrest⟩
    · rw [he] at hpre'
      obtain ⟨rfl, hrest⟩ := List.cons_prefix_cons.mp hpre'
      exact ⟨n, w', Nat.le_refl n, he, hrest⟩

/-- A queued key is handed out some time, once those before it are. -/
theorem handed_of_queued (s : Schedule d) (ho : s.Open) (hf : s.Fair) {n : Nat} {k : κ}
    (hk : k ∈ (s.desk n).queue.queue) : ∃ m w, n ≤ m ∧ s.events m = [.handed w k] := by
  obtain ⟨before, after, hq⟩ := List.append_of_mem hk
  clear hk
  -- Each handout takes the first key off, so the induction is on the keys in front.
  induction before generalizing n after with
  | nil =>
    obtain ⟨m, w, hm, he, -⟩ := s.handed_of_first ho hf hq
    exact ⟨m, w, hm, he⟩
  | cons k' before ih =>
    obtain ⟨m, -, hm, -, more, hrest⟩ := s.handed_of_first ho hf hq
    obtain ⟨m', w, hm', he⟩ := ih (after ++ more) (by rw [← hrest]; simp)
    exact ⟨m', w, by omega, he⟩

/-- A dirty key that is being processed is queued when its worker is done with it. Until then it
stays dirty, for no worker can get it. -/
theorem queued_of_marked (s : Schedule d) (ho : s.Open) (hf : s.Fair)
    {es : List (QueueEvent κ ω)} (h : Orderly es d.containers) {n : Nat} {k : κ}
    (hd : k ∈ (s.desk n).queue.dirty) (hp : k ∈ (s.desk n).queue.processing) :
    ∃ m, n ≤ m ∧ k ∈ (s.desk m).queue.queue := by
  have hmem : k ∈ (s.desk n).held.map Prod.snd := (s.orderly ho h n).held_perm.mem_iff.mp hp
  obtain ⟨⟨w, k'⟩, hheld, rfl⟩ := List.mem_map.mp hmem
  -- The induction is on the number of steps until the worker reports the key.
  obtain ⟨m, hnm, hdone⟩ := hf.finishes n w k' hheld
  obtain ⟨j, rfl⟩ := Nat.exists_eq_add_of_le hnm
  clear hnm hmem hheld
  -- No step before the report can take the key out of processing, nor its mark away.
  induction j generalizing n with
  | zero =>
    have he : s.events n = [.finished w k'] := by
      unfold events
      rw [show s.request n = .done w k' from hdone]
      rfl
    exact ⟨n + 1, Nat.le_succ n, (s.change ho n).queued_of_finished he hd⟩
  | succ j ih =>
    rcases (s.change ho n).kept_or_queued (s.orderly ho h n) hd hp with hq | ⟨hd', hp'⟩
    · exact ⟨n + 1, Nat.le_succ n, hq⟩
    · have hdone' : s.request (n + 1 + j) = .done w k' := by
        rwa [show n + 1 + j = n + (j + 1) by omega]
      obtain ⟨m, hm, hq⟩ := ih hd' hp' hdone'
      exact ⟨m, by omega, hq⟩

/-- A dirty key is handed out some time. -/
theorem handed_of_dirty (s : Schedule d) (ho : s.Open) (hf : s.Fair)
    {es : List (QueueEvent κ ω)} (h : Orderly es d.containers) {k : κ}
    (hd : k ∈ d.queue.dirty) : ∃ m w, s.events m = [.handed w k] := by
  have hd' : k ∈ (s.desk 0).queue.dirty := by rwa [s.desk_zero]
  have hqueued : ∃ n, k ∈ (s.desk n).queue.queue := by
    rcases (s.orderly ho h 0).placed k hd' with hq | hp
    · exact ⟨0, hq⟩
    · obtain ⟨n, -, hq⟩ := s.queued_of_marked ho hf h hd' hp
      exact ⟨n, hq⟩
  obtain ⟨n, hq⟩ := hqueued
  obtain ⟨m, w, -, he⟩ := s.handed_of_queued ho hf hq
  exact ⟨m, w, he⟩

end Schedule

end Desk

/-! ### The laws together -/

/-- The laws of a work queue that has not been shut down, after any requests by any number of
workers.

The queued keys are distinct, none of them is being processed, and a key is dirty exactly when it is
queued, or is being processed and was added since it was handed out. The keys being processed are
those the workers hold, and no key is held twice. A key that was added and not handed out since is
queued, or it is being processed and dirty; if the workers keep going it is handed out some time.
The keys that are queued now are the next to be handed out, in this order. -/
theorem queue_discipline {baseDelay maxDelay : Number} {es : List (QueueEvent κ ω)} {d : Desk κ ω}
    (hrun : Desk.Run (.fresh baseDelay maxDelay) es d) (hopen : d.queue.closed = false) :
    d.queue.queue.Nodup ∧
    (∀ k ∈ d.queue.queue, k ∉ d.queue.processing) ∧
    (∀ k, k ∈ d.queue.dirty ↔
      k ∈ d.queue.queue ∨ (k ∈ d.queue.processing ∧ AddedSinceHandout es k)) ∧
    d.queue.processing.Perm (d.held.map (·.2)) ∧
    (d.held.map (·.2)).Nodup ∧
    (∀ k, AddedSinceHandout es k →
      k ∈ d.queue.queue ∨ (k ∈ d.queue.processing ∧ k ∈ d.queue.dirty)) ∧
    (∀ s : Desk.Schedule d, s.Open → s.Fair → ∀ k, AddedSinceHandout es k →
      ∃ n w, s.events n = [.handed w k]) ∧
    ∀ es' d', Desk.Run d es' d' → d'.queue.closed = false →
      d.queue.queue <+: handedKeys es' ++ d'.queue.queue := by
  have h := orderly_of_run hrun hopen
  refine ⟨h.queue_nodup, h.apart, fun k => ?_, h.held_perm, ?_, fun k hk => ?_, ?_, ?_⟩
  · constructor
    · intro hd
      exact (h.placed k hd).imp id fun hp => ⟨hp, (h.dirty_iff k).mp hd⟩
    · rintro (hq | ⟨-, ha⟩)
      · exact h.dirty_of_queued k hq
      · exact (h.dirty_iff k).mpr ha
  · exact h.held_perm.nodup_iff.mp h.processing_nodup
  · have hd := (h.dirty_iff k).mpr hk
    exact (h.placed k hd).imp id fun hp => ⟨hp, hd⟩
  -- A fair schedule hands out every dirty key in the end.
  · intro s hs hf k hk
    exact s.handed_of_dirty hs hf h ((h.dirty_iff k).mpr hk)
  · intro es' d' hrun' hopen'
    exact queue_prefix_of_run hrun' hopen'

/-- A key that is added again while a worker holds it is not lost: it stays dirty behind the key
that was queued meanwhile. -/
theorem queue_discipline_readded :
    ∃ (es : List (QueueEvent Nat Nat)) (d : Desk Nat Nat),
      Desk.Run (.fresh WorkQueue.defaultBaseDelay WorkQueue.defaultMaxDelay) es d ∧
      es = [.added 1, .added 2, .handed 0 1, .added 1] ∧
      d.queue.closed = false ∧ d.queue.queue = [2] ∧ d.held = [(0, 1)] ∧
      (1 ∈ d.queue.queue ∨ (1 ∈ d.queue.processing ∧ 1 ∈ d.queue.dirty)) := by
  have hrun := ((((Desk.Run.refl (κ := Nat) (ω := Nat)
    (.fresh WorkQueue.defaultBaseDelay WorkQueue.defaultMaxDelay)).step
    (.add 1) trivial).step (.add 2) trivial).step (.get 0) (by intro x hx; cases hx)).step
    (.add 1) trivial
  refine ⟨_, _, hrun, rfl, rfl, rfl, rfl, ?_⟩
  have hadded : AddedSinceHandout
      [.added 1, .added 2, .handed 0 1, (.added 1 : QueueEvent Nat Nat)] 1 :=
    ⟨[.added 1, .added 2, .handed 0 1], [], rfl, by simp⟩
  exact (queue_discipline hrun rfl).2.2.2.2.2.1 1 hadded

end CatalogOperator.Proofs.Queue
