import CatalogOperator.Status.ErrorTracker
import Mathlib.Data.Set.List

/-!
# `CatalogOperator.Proofs.Status.Condition`: the degraded condition of failing sources

The condition goes through the failing sources in the order of their names. Names of documents need
not have an order among each other, but texts have one.

* `inOrder`: the failures, sorted. `degraded?_eq_ok`: a condition is the one for them.
* `degraded?_of_texts`, `exists_texts_inOrder`: there is a condition if all names are texts, and each
  name comes strictly after the one before.
-/

set_option autoImplicit false

namespace CatalogOperator.Proofs.Status

/-! ### The condition for a list of failures -/

/-- The condition holds exactly if there is a failure. -/
theorem status_ofFailures (fs : List (Value × Fault)) :
    (Condition.ofFailures fs).status = true ↔ fs ≠ [] := by
  cases fs with
  | nil => simp [Condition.ofFailures]
  | cons f rest => simp [Condition.ofFailures]

/-- The message lists the failures in their order, each as its source and its message. -/
theorem message_ofFailures (fs : List (Value × Fault)) : (Condition.ofFailures fs).message =
    "; ".intercalate (fs.map fun f => f.1.plain ++ ": " ++ f.2.message) := by
  cases fs with
  | nil => rfl
  | cons f rest => rfl

/-! ### The order -/

/-- The failures in the order in which the condition lists them. -/
def inOrder (t : ErrorTracker) : List (Value × Fault) :=
  t.entries.mergeSort fun a b => Value.compare? a.1 b.1 != some .gt

variable {t : ErrorTracker}

/-- The failures are reordered, and none is left out or repeated. -/
theorem perm_inOrder (t : ErrorTracker) : (inOrder t).Perm t.entries :=
  List.mergeSort_perm _ _

/-- The names are reordered, and none is left out or repeated. -/
theorem perm_keys (t : ErrorTracker) : ((inOrder t).map (·.1)).Perm t.keys :=
  (perm_inOrder t).map (·.1)

/-- If there is a condition, it is the one for the failures in order. -/
theorem degraded?_eq_ok {c : Condition} (h : Condition.degraded? t = .ok c) :
    c = Condition.ofFailures (inOrder t) := by
  unfold Condition.degraded? at h
  split at h
  · exact (Except.ok.inj h).symm
  · cases h

/-- Any two texts have an order. -/
theorem isSome_compare?_text (a b : String) : (Value.compare? (.text a) (.text b)).isSome = true := by
  unfold Value.compare?
  split <;> rfl

/-- Two texts are in order if they are so as strings. -/
theorem compare?_text_ne_gt (a b : String) :
    (Value.compare? (.text a) (.text b) != some .gt) = decide (a ≤ b) := by
  unfold Value.compare?
  split
  · next h =>
    have heq : a = b := Value.text.inj (beq_iff_eq.mp h)
    simp [heq]
  · next h =>
    have hne : a ≠ b := fun heq => h (by rw [heq]; exact beq_self_eq_true _)
    by_cases hlt : a < b
    · have hle : a ≤ b := (String.le_total a b).resolve_right (String.not_le.mpr hlt)
      simp [hlt, hle]
    · have hle : ¬ a ≤ b := fun hle => hne (String.le_antisymm hle (String.not_lt.mp hlt))
      simp [hlt, hle]

/-- Sorting distinct strings puts each of them strictly after the one before. -/
theorem pairwise_mergeSort_strings {xs : List String} (h : xs.Nodup) :
    (xs.mergeSort fun a b => decide (a ≤ b)).Pairwise (· < ·) := by
  have hdistinct : (xs.mergeSort fun a b => decide (a ≤ b)).Nodup :=
    (List.mergeSort_perm _ _).nodup_iff.mpr h
  have hsorted : (xs.mergeSort fun a b => decide (a ≤ b)).Pairwise
      fun a b => decide (a ≤ b) = true := by
    refine List.pairwise_mergeSort (fun a b c hab hbc => ?_) (fun a b => ?_) xs
    · exact decide_eq_true (String.le_trans (of_decide_eq_true hab) (of_decide_eq_true hbc))
    · simpa using String.le_total a b
  -- Sorted strings may be equal to the next one, distinct ones may not.
  refine hsorted.imp₂ (fun a b hle hne => ?_) hdistinct
  exact String.not_le.mp fun hge => hne (String.le_antisymm (of_decide_eq_true hle) hge)

/-! ### Names that are texts -/

variable (h : ∀ name ∈ t.keys, ∃ x, name = .text x)

include h

/-- Failures that are tracked under texts have a condition. -/
theorem degraded?_of_texts : Condition.degraded? t = .ok (Condition.ofFailures (inOrder t)) := by
  refine if_pos ?_
  simp only [List.all_eq_true]
  intro a ha b hb
  obtain ⟨x, rfl⟩ := h a ha
  obtain ⟨y, rfl⟩ := h b hb
  exact isSome_compare?_text x y

/-- In order, each name that is a text comes strictly after the one before. -/
theorem exists_texts_inOrder : ∃ xs : List String,
    (inOrder t).map (·.1) = xs.map Value.text ∧ xs.Pairwise (· < ·) := by
  have hrange : t.keys ∈ Set.range (List.map Value.text) := by
    rw [Set.range_list_map]
    intro name hname
    obtain ⟨x, rfl⟩ := h name hname
    exact ⟨x, rfl⟩
  obtain ⟨xs, hxs⟩ := hrange
  have hdistinct : xs.Nodup := by
    have hkeys : (xs.map Value.text).Nodup := hxs ▸ t.nodup_keys
    exact List.Pairwise.of_map _ (fun _ _ hne heq => hne (congrArg Value.text heq)) hkeys
  refine ⟨_, ?_, pairwise_mergeSort_strings hdistinct⟩
  calc (inOrder t).map (·.1)
      = t.keys.mergeSort fun a b => Value.compare? a b != some .gt :=
        List.map_mergeSort fun _ _ _ _ => rfl
    _ = (xs.map Value.text).mergeSort fun a b => Value.compare? a b != some .gt := by rw [hxs]
    _ = (xs.mergeSort fun a b => decide (a ≤ b)).map Value.text :=
        (List.map_mergeSort fun a _ b _ => (compare?_text_ne_gt a b).symm).symm

end CatalogOperator.Proofs.Status
