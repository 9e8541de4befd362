import CatalogOperator.Proofs.Status.Condition
import Mathlib.Data.List.Sort

/-!
# `CatalogOperator.Proofs.Status.Interleaving`: tracked errors in whatever order they come in

The sources are reconciled independently of each other, so the order in which the errors of different
sources are tracked is a matter of chance. The order of the tracked names depends on it: an error that
replaces another one keeps its place, and one that comes after a removal goes to the end. What is
tracked under a name depends only on what was done to that name and on the hubs, and the condition of
the operator goes through the names in their own order.

* `Update`: what is done to the tracked errors. `Update.effect`: what that comes to for one name.
* `find?_tracked`: what is tracked under a name after a sequence of updates.
* `Alike`: sequences that differ in how the updates of different sources alternate.
* `inOrder_eq_of_perm`: the order in which the condition lists the failures.
* `alike_tracked`: all of it, and what the tracked errors are after a hub has been looked at.
-/

set_option autoImplicit false

namespace CatalogOperator.Proofs.Status

/-! ### Updates -/

/-- An update of the tracked errors: a source has failed, has succeeded or is gone, or the errors are
brought in line with a hub. -/
inductive Update where
  | add (source : String) (error : Fault)
  | remove (source : String)
  | sync (hub : OperatorHub)

namespace Update

/-- The tracked errors after an update. -/
def apply (t : ErrorTracker) : Update → ErrorTracker
  | add source error => t.insert (.text source) error
  | remove source => t.erase (.text source)
  | sync hub => t.sync hub

/-- Whether an update may concern a source: it is one of its own, or it looks at a hub. -/
def concerns (source : String) : Update → Bool
  | add other _ => other = source
  | remove other => other = source
  | sync _ => true

/-- What an update makes of the error that is tracked for a source. -/
def effect (source : String) (error? : Option Fault) : Update → Option Fault
  | add other error => if other = source then some error else error?
  | remove other => if other = source then none else error?
  | sync hub => if hub.enables (.text source) then error? else none

end Update

/-- The tracked errors after a sequence of updates. -/
def tracked (t : ErrorTracker) (us : List Update) : ErrorTracker :=
  us.foldl Update.apply t

/-- Two sequences have the same syncs in the same order, and between two syncs the same updates of each
source in the same order: what is left of either for one source and the hubs is the same. -/
def Alike (us us' : List Update) : Prop :=
  ∀ source, us.filter (Update.concerns source) = us'.filter (Update.concerns source)

/-- Two lists that have no sync before the given one each are equal if they are so before and after it. -/
theorem append_sync_inj {us us' vs vs' : List Update} {hub hub' : OperatorHub}
    (h : .sync hub' ∉ us) (h' : .sync hub ∉ us') :
    us ++ .sync hub :: vs = us' ++ .sync hub' :: vs' ↔ us = us' ∧ hub = hub' ∧ vs = vs' := by
  constructor
  · intro heq
    -- The longer one of the beginnings would have the sync of the other list in it.
    rcases List.append_eq_append_iff.mp heq with ⟨ws, rfl, hws⟩ | ⟨ws, rfl, hws⟩ <;>
      cases ws with
      | nil => simp_all
      | cons w ws => simp_all
  · rintro ⟨rfl, rfl, rfl⟩
    rfl

/-- Up to the first sync the updates of each source are the same, then the hubs are, and from there on
the sequences are alike. -/
theorem alike_sync_iff {us us' vs vs' : List Update} {hub hub' : OperatorHub}
    (h : ∀ hub, .sync hub ∉ us) (h' : ∀ hub, .sync hub ∉ us') :
    Alike (us ++ .sync hub :: vs) (us' ++ .sync hub' :: vs') ↔
      Alike us us' ∧ hub = hub' ∧ Alike vs vs' := by
  have hsource : ∀ source,
      (us ++ .sync hub :: vs).filter (Update.concerns source) =
          (us' ++ .sync hub' :: vs').filter (Update.concerns source) ↔
        us.filter (Update.concerns source) = us'.filter (Update.concerns source) ∧ hub = hub' ∧
          vs.filter (Update.concerns source) = vs'.filter (Update.concerns source) := by
    intro source
    -- Every source sees the syncs, so what it sees splits at the first one as well.
    have hnone : .sync hub' ∉ us.filter (Update.concerns source) :=
      fun hmem => h hub' (List.mem_filter.mp hmem).1
    have hnone' : .sync hub ∉ us'.filter (Update.concerns source) :=
      fun hmem => h' hub (List.mem_filter.mp hmem).1
    rw [List.filter_append, List.filter_append, List.filter_cons_of_pos rfl,
      List.filter_cons_of_pos rfl, append_sync_inj hnone hnone']
  unfold Alike
  rw [forall_congr' hsource, forall_and, forall_and, forall_const]

/-! ### Looking at a hub -/

variable {t t' : ErrorTracker}

/-- A hub enables a source exactly if it lists it at least once without disabling it. -/
theorem enables_iff (hub : OperatorHub) (name : Value) :
    hub.enables name = true ↔ ∃ s ∈ hub.sources, s.name.same name = true ∧ s.disabled = false := by
  simp [OperatorHub.enables]

/-- Looking at a hub keeps just the errors of the sources that the hub lists and does not disable. -/
theorem mem_entries_sync (hub : OperatorHub) {name : Value} {error : Fault} :
    (name, error) ∈ (t.sync hub).entries ↔
      (name, error) ∈ t.entries ∧ ∃ s ∈ hub.sources, s.name.same name = true ∧ s.disabled = false := by
  rw [← enables_iff]
  exact List.mem_filter

/-- A sync keeps the errors of the sources that are enabled. -/
theorem find?_sync (hub : OperatorHub) (name : Value) :
    (t.sync hub).find? name = if hub.enables name then t.find? name else none := by
  refine Option.ext fun error => ?_
  rw [← Table.mem_entries_iff, mem_entries_sync, ← enables_iff, Table.mem_entries_iff]
  cases hub.enables name <;> simp

/-! ### What is tracked for one source -/

/-- What an update does to the error of a source depends on that error only. -/
theorem find?_apply (t : ErrorTracker) (u : Update) (source : String) :
    (u.apply t).find? (.text source) = u.effect source (t.find? (.text source)) := by
  cases u with
  | add other error => simp [Update.apply, Update.effect, Table.find?_insert]
  | remove other => simp [Update.apply, Update.effect, Table.find?_erase]
  | sync hub => exact find?_sync hub _

/-- The updates of other sources do nothing to the error of a source. -/
theorem effect_of_not_concerns {u : Update} {source : String} (h : ¬ u.concerns source = true)
    (error? : Option Fault) : u.effect source error? = error? := by
  cases u with
  | add other error => exact if_neg (by simpa [Update.concerns] using h)
  | remove other => exact if_neg (by simpa [Update.concerns] using h)
  | sync hub => exact absurd rfl h

/-- What is tracked for a source depends on its own updates and on the hubs. -/
theorem find?_tracked (t : ErrorTracker) (us : List Update) (source : String) :
    (tracked t us).find? (.text source) =
      (us.filter (Update.concerns source)).foldl (Update.effect source) (t.find? (.text source)) := by
  unfold tracked
  induction us generalizing t with
  | nil => rfl
  | cons u us ih =>
    rw [List.foldl_cons, ih, find?_apply, List.filter_cons]
    split
    · rfl
    · -- The update is left out on the right, and has done nothing on the left.
      next h => rw [effect_of_not_concerns h]

/-! ### Names that are texts -/

/-- All errors are tracked under texts. -/
def Named (t : ErrorTracker) : Prop :=
  ∀ name ∈ t.keys, ∃ source, name = .text source

/-- An update tracks errors under texts only. -/
theorem named_apply (h : Named t) (u : Update) : Named (u.apply t) := by
  intro name hname
  cases u with
  | add source error =>
    rw [Update.apply, Table.keys_insert] at hname
    split at hname
    · exact h name hname
    · rcases List.mem_append.mp hname with hname | hname
      · exact h name hname
      · exact ⟨source, List.mem_singleton.mp hname⟩
  | remove source =>
    rw [Update.apply, Table.keys_erase] at hname
    exact h name (List.mem_filter.mp hname).1
  | sync hub => exact h name ((List.filter_sublist.map _).subset hname)

/-- All updates track errors under texts only. -/
theorem named_tracked (h : Named t) (us : List Update) : Named (tracked t us) := by
  unfold tracked
  induction us generalizing t with
  | nil => exact h
  | cons u us ih => exact ih (named_apply h u)

/-- No error is tracked under what is no text. -/
theorem find?_of_not_text (h : Named t) {name : Value} (hname : ∀ source, name ≠ .text source) :
    t.find? name = none := by
  rw [← Option.not_isSome_iff_eq_none, Option.isSome_iff_exists]
  rintro ⟨error, hfound⟩
  obtain ⟨source, hsource⟩ := h name (Table.mem_keys_of_find? hfound)
  exact hname source hsource

/-- Sequences that are alike leave the same errors, whatever the order of their names is. -/
theorem find?_tracked_of_alike (h : Named t) {us us' : List Update} (halike : Alike us us')
    (name : Value) : (tracked t us).find? name = (tracked t us').find? name := by
  by_cases hname : ∃ source, name = .text source
  · obtain ⟨source, rfl⟩ := hname
    rw [find?_tracked, find?_tracked, halike source]
  · -- Nothing is ever tracked under anything else.
    rw [not_exists] at hname
    rw [find?_of_not_text (named_tracked h us) hname, find?_of_not_text (named_tracked h us') hname]

/-! ### The condition -/

/-- Trackers in which the same is found have the same entries. -/
theorem perm_entries (h : ∀ name, t.find? name = t'.find? name) : t.entries.Perm t'.entries := by
  refine (List.perm_ext_iff_of_nodup t.nodup.of_map t'.nodup.of_map).mpr ?_
  rintro ⟨name, error⟩
  rw [Table.mem_entries_iff, Table.mem_entries_iff, h]

/-- The first of two failures has a name that is a smaller text. -/
def Earlier (a b : Value × Fault) : Prop :=
  ∃ x y : String, a.1 = .text x ∧ b.1 = .text y ∧ x < y

/-- The failures are listed by the names of their sources. -/
theorem pairwise_inOrder (h : Named t) : (inOrder t).Pairwise Earlier := by
  obtain ⟨xs, hnames, hxs⟩ := exists_texts_inOrder h
  have hpair : (xs.map Value.text).Pairwise fun a b =>
      ∃ x y : String, a = .text x ∧ b = .text y ∧ x < y :=
    List.pairwise_map.mpr (hxs.imp fun hlt => ⟨_, _, rfl, rfl, hlt⟩)
  rw [← hnames, List.pairwise_map] at hpair
  exact hpair

/-- The failures are listed in the same order, in whatever order they are tracked. -/
theorem inOrder_eq_of_perm (h : Named t) (h' : Named t') (hperm : t.entries.Perm t'.entries) :
    inOrder t = inOrder t' := by
  have hsame : (inOrder t).Perm (inOrder t') :=
    (perm_inOrder t).trans (hperm.trans (perm_inOrder t').symm)
  refine hsame.eq_of_pairwise (fun a b _ _ hab hba => ?_) (pairwise_inOrder h) (pairwise_inOrder h')
  -- Neither of two different names is smaller than the other one.
  obtain ⟨x, y, hx, hy, hlt⟩ := hab
  obtain ⟨y', x', hy', hx', hlt'⟩ := hba
  obtain rfl := Value.text.inj (hx.symm.trans hx')
  obtain rfl := Value.text.inj (hy.symm.trans hy')
  exact absurd (String.lt_trans hlt hlt') (String.lt_irrefl _)

/-- Sequences of updates that differ in how the sources alternate leave the same errors, and the same
condition of the operator. Looking at a hub leaves just the errors of the sources that it lists and
does not disable, in the order in which they were. -/
theorem alike_tracked (h : Named t) {us us' : List Update} (halike : Alike us us') :
    (∀ name, (tracked t us).find? name = (tracked t us').find? name) ∧
    (tracked t us).entries.Perm (tracked t us').entries ∧
    Condition.degraded? (tracked t us) = Condition.degraded? (tracked t us') ∧
    ∀ (s : ErrorTracker) (hub : OperatorHub), List.Sublist (s.sync hub).entries s.entries ∧
      ∀ name error, (name, error) ∈ (s.sync hub).entries ↔
        (name, error) ∈ s.entries ∧
          ∃ source ∈ hub.sources, source.name.same name = true ∧ source.disabled = false := by
  have hfound := find?_tracked_of_alike h halike
  have hnamed := named_tracked h us
  have hnamed' := named_tracked h us'
  refine ⟨hfound, perm_entries hfound, ?_, fun s hub => ⟨List.filter_sublist, fun name error =>
    mem_entries_sync hub⟩⟩
  rw [degraded?_of_texts hnamed, degraded?_of_texts hnamed',
    inOrder_eq_of_perm hnamed hnamed' (perm_entries hfound)]

/-- A hub that lists one source twice, once disabled, and another one disabled only. -/
def listing : OperatorHub where
  sources := [⟨.text "a", true⟩, ⟨.text "b", false⟩, ⟨.text "a", false⟩, ⟨.text "c", true⟩]

/-- One source fails, another one fails twice with a success in between, and a third one fails and is
disabled. Then the second one fails again. -/
def oneByOne : List Update :=
  [.add "a" (.invalidArgument "x"), .add "b" (.invalidArgument "y"), .remove "b",
    .add "b" (.invalidArgument "z"), .add "c" (.invalidArgument "x"), .sync listing,
    .add "b" (.invalidArgument "y"), .add "a" (.invalidArgument "z")]

/-- The same, with the sources in turn. -/
def inTurn : List Update :=
  [.add "c" (.invalidArgument "x"), .add "b" (.invalidArgument "y"), .remove "b",
    .add "b" (.invalidArgument "z"), .add "a" (.invalidArgument "x"), .sync listing,
    .add "a" (.invalidArgument "z"), .add "b" (.invalidArgument "y")]

/-- The errors are tracked in another order, and the condition is the same. -/
theorem alike_tracked_in_turn :
    Named Table.empty ∧ Alike oneByOne inTurn ∧
      (tracked Table.empty oneByOne).keys = [.text "a", .text "b"] ∧
      (tracked Table.empty inTurn).keys = [.text "b", .text "a"] ∧
      Condition.degraded? (tracked Table.empty oneByOne) =
        Condition.degraded? (tracked Table.empty inTurn) ∧
      (tracked Table.empty inTurn).find? (.text "a") = some (.invalidArgument "z") ∧
      (tracked Table.empty inTurn).find? (.text "c") = none := by
  have hnamed : Named Table.empty := fun name hname => absurd hname (by simp [Table.keys, Table.empty])
  have halike : Alike oneByOne inTurn := by
    intro source
    by_cases ha : "a" = source
    · subst ha; rfl
    · by_cases hb : "b" = source
      · subst hb; rfl
      · by_cases hc : "c" = source
        · subst hc; rfl
        · -- Any other source sees the sync alone.
          simp [oneByOne, inTurn, Update.concerns, List.filter_cons, ha, hb, hc]
  obtain ⟨hfound, -, hdegraded, -⟩ := alike_tracked hnamed halike
  exact ⟨hnamed, halike, by decide +kernel, by decide +kernel, hdegraded,
    (hfound _).symm.trans (by decide +kernel), (hfound _).symm.trans (by decide +kernel)⟩

end CatalogOperator.Proofs.Status
