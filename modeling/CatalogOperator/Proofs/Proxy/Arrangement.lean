import CatalogOperator.Proofs.Proxy.Staleness

/-!
# `CatalogOperator.Proofs.Proxy.Arrangement`: the order in which proxy variables end up

Putting the proxy variables in order erases the first variable of each of their names and puts in the
values that are not empty, each in the place of the first variable of its name or at the end. If no name
is repeated, nothing is left to take the place of: all other variables come first, in their order, and
then the values in force in theirs. So nothing depends on where the proxy variables were, or on the
values that were in force before.

* `erase_eq_filter`, `merge_eq_append`: the two steps on variables that are named apart.
* `manage_eq`: what they come to together.
* `isStale?_of_arranged`: what the check finds in variables that are in order.
* `arranged`: all of it. `not_arranged_unusable` is a variable that the check cannot look up.
-/

set_option autoImplicit false

namespace CatalogOperator.Proofs.Proxy

open EnvList

/-! ### Variables that are named apart -/

section

variable {env vs : List EnvVar}

/-- There is but one variable to be erased. -/
theorem erase_eq_filter (hd : Distinct env) {name : Value} (hname : name ≠ .float .nan) :
    erase env name = env.filter fun v => !v.name.same name := by
  induction env with
  | nil => rfl
  | cons v env ih =>
    obtain ⟨hv, hd⟩ := List.pairwise_cons.mp hd
    rw [erase_cons, isNamed_eq hname, List.filter_cons, ih hd]
    cases hsame : v.name.same name with
    | false => rfl
    | true =>
      -- No variable that follows has the name as well.
      refine (List.filter_eq_self.mpr fun w hw => ?_).symm
      rw [Value.same_comm, ← Value.same_left_congr hsame, hv w hw]
      rfl

/-- Erasing several names leaves all other variables. -/
theorem eraseAll_eq_others (hd : Distinct env) (hnames : ∀ v ∈ vs, v.name ≠ .float .nan) :
    vs.foldl (fun e v => erase e v.name) env = others vs env := by
  induction vs generalizing env with
  | nil => exact (List.filter_eq_self.mpr fun _ _ => rfl).symm
  | cons v vs ih =>
    rw [List.forall_mem_cons] at hnames
    rw [List.foldl_cons, erase_eq_filter hd hnames.1, ih (hd.filter _) hnames.2, others, others,
      List.filter_filter]
    refine List.filter_congr fun w _ => ?_
    rw [List.all_cons, Bool.and_comm]

/-- A variable of a new name goes to the end. -/
theorem put_of_absent {v : EnvVar} (h : ∀ w ∈ env, w.isNamed v.name = false) :
    put env v = env ++ [v] := by
  induction env with
  | nil => rfl
  | cons w env ih =>
    rw [List.forall_mem_cons] at h
    rw [put, if_neg (by simp [h.1]), ih h.2, List.cons_append]

/-- A variable is not found under a name that it does not have. -/
theorem isNamed_of_same_false {v : EnvVar} {name : Value} (h : v.name.same name = false) :
    v.isNamed name = false := by
  rw [Bool.eq_false_iff] at h ⊢
  exact fun hnamed => h (same_of_isNamed hnamed)

/-- Variables of new names go to the end in their order. -/
theorem merge_eq_append (hd : Distinct vs)
    (h : ∀ v ∈ vs, ∀ w ∈ env, w.name.same v.name = false) : merge env vs = env ++ vs := by
  unfold merge
  induction vs generalizing env with
  | nil => simp
  | cons v vs ih =>
    obtain ⟨hv, hd⟩ := List.pairwise_cons.mp hd
    rw [List.forall_mem_cons] at h
    have hnext : ∀ u ∈ vs, ∀ w ∈ env ++ [v], w.name.same u.name = false := by
      intro u hu w hw
      rcases List.mem_append.mp hw with hw | hw
      · exact h.2 u hu w hw
      · rw [List.mem_singleton.mp hw]
        exact hv u hu
    have hfirst : ∀ w ∈ env, w.isNamed v.name = false := fun w hw => isNamed_of_same_false (h.1 w hw)
    rw [List.foldl_cons, put_of_absent hfirst, ih hd hnext, List.append_assoc]
    rfl

/-- The others have none of the names. -/
theorem name_of_mem_others {v w : EnvVar} (hw : w ∈ others vs env) (hv : v ∈ vs) :
    w.name.same v.name = false := by
  have hall := (List.mem_filter.mp hw).2
  simpa using List.all_eq_true.mp hall v hv

end

/-! ### Proxy variables in order -/

section

variable {env : List EnvVar} (p q : ProxyStore)

/-- The variables of the proxy values that are not empty. -/
def filled : List EnvVar :=
  p.vars.filter fun v => v.value.isTrue

/-- All other variables, and then the values in force that are not empty. -/
theorem manage_eq (hd : Distinct env) : p.manage env = others p.vars env ++ filled p := by
  unfold ProxyStore.manage filled
  dsimp only
  rw [eraseAll_eq_others hd fun v hv => name_ne_nan p hv, merge_eq_append ((distinct_vars p).filter _)]
  intro v hv w hw
  exact name_of_mem_others hw (List.mem_filter.mp hv).1

/-- Putting the proxy variables in order names no two variables alike. -/
theorem distinct_manage (hd : Distinct env) : Distinct (p.manage env) := by
  rw [manage_eq p hd]
  refine List.pairwise_append.mpr ⟨hd.filter _, (distinct_vars p).filter _, fun w hw v hv => ?_⟩
  exact name_of_mem_others hw (List.mem_filter.mp hv).1

/-- Whatever the values in force are, the same variables are the others. -/
theorem others_vars (env : List EnvVar) : others q.vars env = others p.vars env :=
  rfl

/-- The values that were in force before make no difference. -/
theorem manage_manage (hd : Distinct env) : q.manage (p.manage env) = q.manage env := by
  rw [manage_eq q (distinct_manage p hd), manage_eq q hd, others_vars p q, others_manage,
    ← others_vars p q]

/-- In variables that are in order the check finds nothing out of date, if all names can be looked up
and no value is told apart from itself. -/
theorem isStale?_of_arranged (hd : Distinct env) (harranged : p.manage env = env) :
    p.isStale? env = .ok false ↔
      ∀ v ∈ env, v.name.isScalar = true ∧ v.value ≠ .float .nan := by
  have hfault : EnvList.fault? env = none ↔ ∀ v ∈ env, v.name.isScalar = true := by
    rw [EnvList.fault?, Option.map_eq_none_iff, List.find?_eq_none]
    simp
  have hvalues : p.isStale env = false ↔ ∀ v ∈ env, v.value ≠ .float .nan := by
    -- Each variable is the only one of its name, so it is compared with itself.
    have hlast : ∀ v ∈ env, ProxyStore.overrides env v = false ↔ v.value ≠ .float .nan := by
      intro v hv
      rw [overrides_eq_false_iff, named_eq_singleton hd hv (Value.same_refl _)]
      simp [Value.differs_eq_false]
    rw [← forall₂_congr hlast]
    simp [ProxyStore.isStale, harranged]
  rw [forall₂_and, ← hfault, ← hvalues, ProxyStore.isStale?, if_neg (by simp [harranged])]
  cases EnvList.fault? env <;> simp

/-- Variables that are named apart are put in order: all others come first, in their order, and then the
proxy values that are not empty, in theirs. The result is named apart, stays as it is when it is put in
order again, and what other proxy values make of it is what they make of the variables themselves. The
check finds nothing out of date in it exactly if all names can be looked up and no value is the one that
is told apart from itself. -/
theorem arranged (hd : Distinct env) :
    p.manage env = others p.vars env ++ filled p ∧ Distinct (p.manage env) ∧
      p.manage (p.manage env) = p.manage env ∧
      (p.isStale? (p.manage env) = .ok false ↔
        ∀ v ∈ p.manage env, v.name.isScalar = true ∧ v.value ≠ .float .nan) ∧
      ∀ c, (p.set c).1.manage (p.manage env) = (p.set c).1.manage env := by
  have hagain := manage_manage p p hd
  exact ⟨manage_eq p hd, distinct_manage p hd, hagain,
    isStale?_of_arranged p (distinct_manage p hd) hagain, fun c => manage_manage p _ hd⟩

end

/-- A value that was in force before is at the front, and one that is no longer in force in between. -/
theorem arranged_scattered :
    ∃ (p : ProxyStore) (env : List EnvVar), Distinct env ∧
      env = [⟨.text "HTTP_PROXY", .text "old"⟩, ⟨.text "A", .text "1"⟩,
        ⟨.text "NO_PROXY", .text "n"⟩, ⟨.text "B", .text "2"⟩] ∧
      p.manage env = [⟨.text "A", .text "1"⟩, ⟨.text "B", .text "2"⟩,
        ⟨.text "HTTP_PROXY", .text "new"⟩, ⟨.text "HTTPS_PROXY", .text "s"⟩] ∧
      p.isStale? (p.manage env) = .ok false := by
  have hd : Distinct [⟨.text "HTTP_PROXY", .text "old"⟩, ⟨.text "A", .text "1"⟩,
      ⟨.text "NO_PROXY", .text "n"⟩, ⟨.text "B", .text "2"⟩] := by
    unfold Distinct
    decide +kernel
  have h := arranged { config := { http := .text "new", https := .text "s" } } hd
  exact ⟨_, _, hd, rfl, h.1.trans (by decide +kernel), h.2.2.2.1.mpr (by decide +kernel)⟩

/-- A variable whose name is a list stays where it is, and the check cannot look it up. -/
theorem not_arranged_unusable :
    ∃ (p : ProxyStore) (env : List EnvVar), Distinct env ∧
      env = [⟨.list [.text "A"], .text "1"⟩] ∧ p.manage env = env ∧
      p.isStale? (p.manage env) = .error (.notAKey (.list [.text "A"])) := by
  have hmanage : ProxyStore.manage {} [⟨.list [.text "A"], .text "1"⟩] =
      [⟨.list [.text "A"], .text "1"⟩] := by decide +kernel
  refine ⟨{}, _, List.pairwise_singleton _ _, rfl, hmanage, ?_⟩
  rw [hmanage, ProxyStore.isStale?, hmanage, if_neg (by simp)]
  rfl

end CatalogOperator.Proofs.Proxy
