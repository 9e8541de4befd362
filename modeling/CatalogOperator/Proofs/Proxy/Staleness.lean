import CatalogOperator.Proofs.Proxy.Settling
import Mathlib.Data.List.Induction

/-!
# `CatalogOperator.Proofs.Proxy.Staleness`: when proxy variables are found out of date

Whether the proxy variables of an environment are out of date is told in two steps. If putting them in
order changes the number of variables, they are. Otherwise only the values of those names are compared
that were there before. So a proxy variable that is missing makes up for one that is left over: their
number stays the same, and neither name is compared.

* `diff_eq_nil_iff`: two environments differ in no name exactly if they agree on the names of either.
* `diff_manage_eq_nil_iff`: putting the proxy variables in order changes no value in force exactly if
  they are up to date.
* `length_manage_iff`, `overrides_manage_iff`: the two steps of the check.
* `stale_iff`: the check finds what has changed, unless as many variables are missing as are left over.
  `not_stale_exchanged` is the case in which it does not.
-/

set_option autoImplicit false

namespace CatalogOperator.Proofs.Proxy

open EnvList

/-! ### Names and the values in force -/

/-- A further variable adds its name unless it is there already. -/
theorem names_snoc (env : List EnvVar) (v : EnvVar) :
    names (env ++ [v]) =
      if (names env).any (·.same v.name) then names env else names env ++ [v.name] := by
  rw [names, List.foldl_append]
  rfl

/-- The names of a list are those of its variables. -/
theorem exists_mem_of_mem_names {env : List EnvVar} {n : Value} (h : n ∈ names env) :
    ∃ v ∈ env, v.name = n := by
  induction env using List.reverseRecOn with
  | nil => cases h
  | append_singleton env v ih =>
    have hold : n ∈ names env → ∃ u ∈ env ++ [v], u.name = n := by
      intro hn
      obtain ⟨u, hu, hname⟩ := ih hn
      exact ⟨u, List.mem_append_left _ hu, hname⟩
    rw [names_snoc] at h
    split at h
    · exact hold h
    · rcases List.mem_append.mp h with h | h
      · exact hold h
      · exact ⟨v, by simp, (List.mem_singleton.mp h).symm⟩

/-- Each variable has a name of the list. -/
theorem exists_same_of_mem {env : List EnvVar} {v : EnvVar} (h : v ∈ env) :
    ∃ n ∈ names env, n.same v.name = true := by
  induction env using List.reverseRecOn with
  | nil => cases h
  | append_singleton env u ih =>
    rw [names_snoc]
    rcases List.mem_append.mp h with h | h
    · obtain ⟨n, hn, hsame⟩ := ih h
      split
      · exact ⟨n, hn, hsame⟩
      · exact ⟨n, List.mem_append_left _ hn, hsame⟩
    · obtain rfl := List.mem_singleton.mp h
      split
      · next hany => exact List.any_eq_true.mp hany
      · exact ⟨v.name, by simp, Value.same_refl _⟩

/-- Variables are found by any name that counts as equal. -/
theorem named_congr {n n' : Value} (h : n.same n' = true) (env : List EnvVar) :
    named env n = named env n' := by
  refine List.filter_congr fun v _ => ?_
  rw [Value.same_comm, Value.same_left_congr h, Value.same_comm]

/-- Names that are not told apart have the same value in force. -/
theorem inForce_congr {n n' : Value} (h : n.same n' = true) (env : List EnvVar) :
    inForce env n = inForce env n' := by
  rw [inForce_eq, inForce_eq, named_congr h]

/-- Two environments differ in no name exactly if they agree on the name of each of their variables. -/
theorem diff_eq_nil_iff (current desired : List EnvVar) :
    diff current desired = [] ↔
      ∀ v, v ∈ current ∨ v ∈ desired →
        (inForce current v.name).differs (inForce desired v.name) = false := by
  rw [diff, List.filter_eq_nil_iff]
  simp only [Bool.not_eq_true]
  constructor
  · intro h v hv
    obtain ⟨n, hn, hsame⟩ := exists_same_of_mem (List.mem_append.mpr hv)
    rw [← inForce_congr hsame, ← inForce_congr hsame]
    exact h n hn
  · intro h n hn
    obtain ⟨v, hv, rfl⟩ := exists_mem_of_mem_names hn
    exact h v (List.mem_append.mp hv)

/-! ### Variables that are named apart -/

/-- A variable that can be compared: its name can be looked up, and its value is there and is not told
apart from itself. Any variable of which name and value are texts is one. -/
def Comparable (v : EnvVar) : Prop :=
  v.name.isScalar = true ∧ v.value ≠ .null ∧ v.value ≠ .float .nan

section

variable {env : List EnvVar}

/-- A name that occurs at most once leaves room for nothing but its variable. -/
theorem named_eq_singleton (hd : Distinct env) {w : EnvVar} {name : Value} (hw : w ∈ env)
    (hname : w.name.same name = true) : named env name = [w] := by
  have hmem : w ∈ named env name := mem_named.mpr ⟨hw, hname⟩
  have hlength := length_named_le_one hd name
  match hl : named env name with
  | [] =>
    rw [hl] at hmem
    cases hmem
  | [u] =>
    rw [hl] at hmem
    rw [List.mem_singleton.mp hmem]
  | _ :: _ :: _ =>
    rw [hl] at hlength
    simp at hlength

/-- A name that occurs at most once is that of one variable. -/
theorem eq_of_same_name (hd : Distinct env) {w u : EnvVar} {name : Value} (hw : w ∈ env)
    (hu : u ∈ env) (hwname : w.name.same name = true) (huname : u.name.same name = true) :
    w = u := by
  have hone := (named_eq_singleton hd hw hwname).symm.trans (named_eq_singleton hd hu huname)
  exact List.singleton_inj.mp hone

/-- In a list of distinct names the value in force is that of the variable with the name. -/
theorem inForce_of_mem (hd : Distinct env) {w : EnvVar} {name : Value} (hw : w ∈ env)
    (hname : w.name.same name = true) : inForce env name = w.value := by
  rw [inForce_eq, named_eq_singleton hd hw hname]
  rfl

/-- There is a variable of a name, or there is none. -/
theorem exists_named_or_absent (env : List EnvVar) (name : Value) :
    (∃ w ∈ env, w.name.same name = true) ∨ ∀ w ∈ env, w.name.same name = false := by
  by_cases h : ∃ w ∈ env, w.name.same name = true
  · exact .inl h
  · refine .inr fun w hw => ?_
    rw [← Bool.not_eq_true]
    exact fun hsame => h ⟨w, hw, hsame⟩

/-- A name that no variable has has no value in force. -/
theorem inForce_of_absent {name : Value} (h : named env name = []) : inForce env name = .null := by
  rw [inForce_eq, h]
  rfl

end

/-! ### What is missing, and what is left over -/

section

variable (p : ProxyStore) (env : List EnvVar)

/-- The proxy variables that the environment has to have and does not. -/
def missing : List EnvVar :=
  p.vars.filter fun v => v.value.isTrue && (named env v.name).isEmpty

/-- The proxy variables that the environment has and must not have. -/
def leftOver : List EnvVar :=
  p.vars.filter fun v => !v.value.isTrue && !(named env v.name).isEmpty

/-- No proxy variable that belongs there has another value than the one in force. -/
def Unchanged : Prop :=
  ∀ v ∈ p.vars, v.value.isTrue = true → ∀ w ∈ env, w.name.same v.name = true →
    w.value.differs v.value = false

/-- The proxy variables are up to date, wherever they stand: for each proxy name there is the value in
force, or no variable at all if that value is empty. -/
def Current : Prop :=
  ∀ v ∈ p.vars,
    if v.value.isTrue then ∃ w ∈ env, w.name.same v.name = true ∧ w.value.same v.value = true
    else ∀ w ∈ env, w.name.same v.name = false

/-- Some proxy variables are missing, just as many are left over, and none has changed. -/
def Exchanged : Prop :=
  missing p env ≠ [] ∧ (missing p env).length = (leftOver p env).length ∧ Unchanged p env

end

section

variable {p : ProxyStore} {env : List EnvVar}

/-- A name has no variables if every variable has another one. -/
theorem named_isEmpty_iff {name : Value} :
    (named env name).isEmpty = true ↔ ∀ w ∈ env, w.name.same name = false := by
  rw [List.isEmpty_iff, named, List.filter_eq_nil_iff]
  simp

/-- Nothing is missing if every proxy value that is not empty has a variable. -/
theorem missing_eq_nil_iff :
    missing p env = [] ↔
      ∀ v ∈ p.vars, v.value.isTrue = true → ∃ w ∈ env, w.name.same v.name = true := by
  rw [missing, List.filter_eq_nil_iff]
  refine forall₂_congr fun v _ => ?_
  rw [Bool.and_eq_true, not_and, named_isEmpty_iff]
  simp

/-- Nothing is left over if no empty proxy value has a variable. -/
theorem leftOver_eq_nil_iff :
    leftOver p env = [] ↔
      ∀ v ∈ p.vars, v.value.isTrue = false → ∀ w ∈ env, w.name.same v.name = false := by
  rw [leftOver, List.filter_eq_nil_iff]
  refine forall₂_congr fun v _ => ?_
  rw [Bool.and_eq_true, not_and, ← named_isEmpty_iff]
  simp

/-- Nothing is missing or left over or changed exactly if the variables are up to date. -/
theorem current_iff (hd : Distinct env) (henv : ∀ w ∈ env, Comparable w)
    (hp : ∀ v ∈ p.vars, v.value ≠ .float .nan) :
    Current p env ↔ missing p env = [] ∧ leftOver p env = [] ∧ Unchanged p env := by
  rw [missing_eq_nil_iff, leftOver_eq_nil_iff]
  constructor
  · intro h
    refine ⟨fun v hv htrue => ?_, fun v hv hfalse => ?_, fun v hv htrue w hw hname => ?_⟩
    · have hv' := h v hv
      rw [if_pos htrue] at hv'
      obtain ⟨w, hw, hname, -⟩ := hv'
      exact ⟨w, hw, hname⟩
    · have hv' := h v hv
      rwa [if_neg (by simp [hfalse])] at hv'
    · have hv' := h v hv
      rw [if_pos htrue] at hv'
      obtain ⟨u, hu, hname', hvalue⟩ := hv'
      -- There is only one variable of the name.
      obtain rfl : w = u := eq_of_same_name hd hw hu hname hname'
      exact Value.differs_eq_false.mpr ⟨(henv w hw).2.2, hp v hv, hvalue⟩
  · rintro ⟨hmissing, hleft, hunchanged⟩ v hv
    split
    · next htrue =>
      obtain ⟨w, hw, hname⟩ := hmissing v hv htrue
      have hdiffers := hunchanged v hv htrue w hw hname
      exact ⟨w, hw, hname, (Value.differs_eq_false.mp hdiffers).2.2⟩
    · next hfalse => exact hleft v hv (by simpa using hfalse)

/-! ### What putting them in order does -/

/-- Of a proxy name, exactly the value in force is there afterwards, if it is not empty. -/
theorem named_manage_of_distinct (hd : Distinct env) {v : EnvVar} (hv : v ∈ p.vars) :
    named (p.manage env) v.name = if v.value.isTrue then [v] else [] := by
  have hone := length_named_le_one hd v.name
  have htail : (named env v.name).tail = [] := by
    rw [← List.length_eq_zero_iff, List.length_tail]
    omega
  rw [named_manage p env hv, htail]
  rfl

/-- A proxy variable whose value is not empty is put in. -/
theorem mem_manage (hd : Distinct env) {v : EnvVar} (hv : v ∈ p.vars)
    (htrue : v.value.isTrue = true) : v ∈ p.manage env := by
  have hmanaged := named_manage_of_distinct hd hv
  rw [if_pos htrue] at hmanaged
  exact (mem_named.mp (hmanaged ▸ List.mem_singleton_self v)).1

/-- The variables of a name that is no proxy name are the same as before. -/
theorem named_manage_of_other {name : Value} (h : ∀ v ∈ p.vars, name.same v.name = false) :
    named (p.manage env) name = named env name := by
  have hnamed : ∀ e : List EnvVar, named e name = named (others p.vars e) name := by
    intro e
    rw [named, named, others, List.filter_filter]
    refine List.filter_congr fun w _ => ?_
    cases hw : w.name.same name with
    | false => rfl
    | true =>
      have hother : p.vars.all (fun v => !w.name.same v.name) = true := by
        rw [List.all_eq_true]
        intro v hv
        rw [Value.same_left_congr hw, h v hv]
        rfl
      rw [hother]
      rfl
  rw [hnamed, others_manage, ← hnamed]

/-- A variable of no proxy name is there afterwards only if it was there before. -/
theorem mem_of_mem_manage {w : EnvVar} (h : ∀ v ∈ p.vars, w.name.same v.name = false)
    (hw : w ∈ p.manage env) : w ∈ env := by
  have hmem : w ∈ named (p.manage env) w.name := mem_named.mpr ⟨hw, Value.same_refl _⟩
  rw [named_manage_of_other h] at hmem
  exact (mem_named.mp hmem).1

/-- A name is a proxy name or none. -/
theorem exists_same_or_other (p : ProxyStore) (name : Value) :
    (∃ v ∈ p.vars, name.same v.name = true) ∨ ∀ v ∈ p.vars, name.same v.name = false := by
  simpa only [Value.same_comm name] using exists_named_or_absent p.vars name

/-- Under a proxy name, no value in force changes exactly if there is the value to be in force, or none
if that value is empty. -/
theorem inForce_manage_iff (hd : Distinct env) (henv : ∀ w ∈ env, Comparable w) {v : EnvVar}
    (hv : v ∈ p.vars) (hvalue : v.value ≠ .float .nan) :
    (inForce env v.name).differs (inForce (p.manage env) v.name) = false ↔
      if v.value.isTrue then ∃ w ∈ env, w.name.same v.name = true ∧ w.value.same v.value = true
      else ∀ w ∈ env, w.name.same v.name = false := by
  have hmanaged := named_manage_of_distinct hd hv
  -- Either the environment has a variable of the name, and then it is the only one, or it has none.
  -- In both cases it depends on the proxy value whether one belongs there.
  rcases exists_named_or_absent env v.name with ⟨w, hw, hname⟩ | habsent
  · obtain ⟨-, hnull, hnan⟩ := henv w hw
    rw [inForce_of_mem hd hw hname]
    split
    · next htrue =>
      rw [if_pos htrue] at hmanaged
      rw [inForce_eq, hmanaged, Value.differs_eq_false]
      constructor
      · exact fun h => ⟨w, hw, hname, h.2.2⟩
      · rintro ⟨u, hu, hname', hsame⟩
        obtain rfl : w = u := eq_of_same_name hd hw hu hname hname'
        exact ⟨hnan, hvalue, hsame⟩
    · next hfalse =>
      rw [if_neg hfalse] at hmanaged
      rw [inForce_of_absent hmanaged, Value.differs_eq_false, Value.same_null_iff]
      refine iff_of_false (fun h => hnull h.2.2) fun h => ?_
      rw [h w hw] at hname
      cases hname
  · have hnone : named env v.name = [] := List.isEmpty_iff.mp (named_isEmpty_iff.mpr habsent)
    rw [inForce_of_absent hnone]
    split
    · next htrue =>
      rw [if_pos htrue] at hmanaged
      rw [inForce_eq, hmanaged, Value.differs_eq_false, Value.same_comm, List.getLast?_singleton,
        Option.map_some, Option.getD_some, Value.same_null_iff]
      refine iff_of_false (fun h => ?_) fun ⟨w, hw, hname, _⟩ => ?_
      · rw [h.2.2] at htrue
        cases htrue
      · rw [habsent w hw] at hname
        cases hname
    · next hfalse =>
      rw [if_neg hfalse] at hmanaged
      rw [inForce_of_absent hmanaged]
      exact iff_of_true (by decide) habsent

/-- Putting the proxy variables in order changes no value in force exactly if they are up to date. -/
theorem diff_manage_eq_nil_iff (hd : Distinct env) (henv : ∀ w ∈ env, Comparable w)
    (hp : ∀ v ∈ p.vars, v.value ≠ .float .nan) :
    diff env (p.manage env) = [] ↔ Current p env := by
  rw [diff_eq_nil_iff]
  constructor
  · intro h v hv
    rcases exists_named_or_absent env v.name with ⟨w, hw, hname⟩ | habsent
    · have hagree := h w (.inl hw)
      rw [inForce_congr hname, inForce_congr hname] at hagree
      exact (inForce_manage_iff hd henv hv (hp v hv)).mp hagree
    · by_cases htrue : v.value.isTrue = true
      · -- The variable is put in, so its name is one of those that are compared.
        have hmem := mem_manage hd hv htrue
        exact (inForce_manage_iff hd henv hv (hp v hv)).mp (h v (.inr hmem))
      · rw [if_neg htrue]
        exact habsent
  · intro h u hu
    rcases exists_same_or_other p u.name with ⟨v, hv, hname⟩ | hother
    · rw [inForce_congr hname, inForce_congr hname]
      exact (inForce_manage_iff hd henv hv (hp v hv)).mpr (h v hv)
    · have hmem : u ∈ env := hu.elim id (mem_of_mem_manage hother)
      have hsame : inForce (p.manage env) u.name = inForce env u.name := by
        rw [inForce_eq, inForce_eq, named_manage_of_other hother]
      rw [hsame, inForce_of_mem hd hmem (Value.same_refl _), Value.differs_eq_false]
      exact ⟨(henv u hmem).2.2, (henv u hmem).2.2, Value.same_refl _⟩

/-! ### The two steps of the check -/

/-- Putting the proxy variables in order keeps their number exactly if as many are missing as are left
over. -/
theorem length_manage_iff (hd : Distinct env) :
    (p.manage env).length = env.length ↔ (missing p env).length = (leftOver p env).length := by
  -- Each missing variable adds one to the sum over the proxy names, and each left over takes one off.
  have hsum : ∀ vs : List EnvVar, (∀ v ∈ vs, v ∈ p.vars) →
      (vs.map fun v => (named (p.manage env) v.name).length).sum +
          (vs.filter fun v => !v.value.isTrue && !(named env v.name).isEmpty).length =
        (vs.map fun v => (named env v.name).length).sum +
          (vs.filter fun v => v.value.isTrue && (named env v.name).isEmpty).length := by
    intro vs hvs
    induction vs with
    | nil => rfl
    | cons v vs ih =>
      have hrest := ih fun w hw => hvs w (List.mem_cons_of_mem _ hw)
      have hmanaged := named_manage_of_distinct hd (hvs v List.mem_cons_self)
      have hone := length_named_le_one hd v.name
      have hlength : (named env v.name).isEmpty = decide ((named env v.name).length = 0) := by
        cases named env v.name <;> simp
      rw [List.map_cons, List.map_cons, List.sum_cons, List.sum_cons, List.filter_cons,
        List.filter_cons, hmanaged, hlength]
      cases v.value.isTrue <;> by_cases hzero : (named env v.name).length = 0 <;>
        simp [hzero] <;> omega
  have htotal := hsum p.vars fun v hv => hv
  rw [length_eq_others_add (distinct_vars p) (p.manage env),
    length_eq_others_add (distinct_vars p) env, others_manage]
  unfold missing leftOver
  omega

/-- The values are found unchanged exactly if no proxy variable has changed. -/
theorem overrides_manage_iff (hd : Distinct env) (henv : ∀ w ∈ env, Comparable w) :
    (∀ v ∈ p.manage env, ProxyStore.overrides env v = false) ↔ Unchanged p env := by
  constructor
  · intro h v hv htrue w hw hname
    refine (overrides_eq_false_iff env v).mp (h v (mem_manage hd hv htrue)) w ?_
    rw [named_eq_singleton hd hw hname]
    rfl
  · intro h v hv
    rw [overrides_eq_false_iff]
    intro w hw
    obtain ⟨hmem, hname⟩ := mem_named.mp (List.mem_of_getLast? hw)
    rcases exists_same_or_other p v.name with ⟨u, hu, hsame⟩ | hother
    · -- All that is left of a proxy name is the variable that was put in.
      have hin : v ∈ named (p.manage env) u.name := mem_named.mpr ⟨hv, hsame⟩
      rw [named_manage_of_distinct hd hu] at hin
      split at hin
      · next htrue =>
        obtain rfl := List.mem_singleton.mp hin
        exact h v hu htrue w hmem hname
      · cases hin
    · have hv' := mem_of_mem_manage hother hv
      obtain rfl : w = v := eq_of_same_name hd hmem hv' hname (Value.same_refl _)
      exact Value.differs_eq_false.mpr ⟨(henv w hmem).2.2, (henv w hmem).2.2, Value.same_refl _⟩

/-- The variables are found in order exactly if their number is kept and no value has changed. -/
theorem isStale_eq_false_iff (hd : Distinct env) (henv : ∀ w ∈ env, Comparable w) :
    p.isStale env = false ↔
      (missing p env).length = (leftOver p env).length ∧ Unchanged p env := by
  rw [← length_manage_iff hd, ← overrides_manage_iff hd henv]
  simp [ProxyStore.isStale]

end

/-! ### What the check finds -/

/-- Variables that are named apart and can be compared are checked without a fault. They are found out
of date exactly if putting them in order changes a value in force, unless as many proxy variables are
missing as are left over and none has changed; then they are not. No value in force would change exactly
if for each proxy name there is the value in force, or no variable at all if that value is empty. -/
theorem stale_iff (p : ProxyStore) (env : List EnvVar) (hd : Distinct env)
    (henv : ∀ w ∈ env, Comparable w) (hp : ∀ v ∈ p.vars, v.value ≠ .float .nan) :
    (p.isStale? env = .ok true ↔ diff env (p.manage env) ≠ [] ∧ ¬ Exchanged p env) ∧
      (p.isStale? env = .ok false ↔ Current p env ∨ Exchanged p env) ∧
      (diff env (p.manage env) = [] ↔ Current p env) ∧
      (Exchanged p env → diff env (p.manage env) ≠ []) := by
  have hcurrent := current_iff hd henv hp
  have hdiff := diff_manage_eq_nil_iff hd henv hp
  have hdone : p.isStale? env = .ok (p.isStale env) := by
    have hfault : EnvList.fault? env = none := by
      rw [EnvList.fault?, Option.map_eq_none_iff, List.find?_eq_none]
      intro w hw
      simp [(henv w hw).1]
    unfold ProxyStore.isStale?
    rw [hfault]
    split
    · next hlength => simp [ProxyStore.isStale, hlength]
    · rfl
  -- As many missing as left over means none of either, or an exchange.
  have hfalse : p.isStale env = false ↔ Current p env ∨ Exchanged p env := by
    rw [isStale_eq_false_iff hd henv, hcurrent]
    unfold Exchanged
    constructor
    · rintro ⟨hlength, hunchanged⟩
      by_cases hnone : missing p env = []
      · rw [hnone, List.length_nil, eq_comm, List.length_eq_zero_iff] at hlength
        exact .inl ⟨hnone, hlength, hunchanged⟩
      · exact .inr ⟨hnone, hlength, hunchanged⟩
    · rintro (⟨hnone, hleft, hunchanged⟩ | ⟨-, hlength, hunchanged⟩)
      · exact ⟨by rw [hnone, hleft], hunchanged⟩
      · exact ⟨hlength, hunchanged⟩
  have hexchanged : Exchanged p env → ¬ Current p env := fun h hc => h.1 (hcurrent.mp hc).1
  refine ⟨?_, ?_, hdiff, fun h hnil => hexchanged h (hdiff.mp hnil)⟩
  · rw [hdone, Except.ok.injEq, ← Bool.not_eq_false, hfalse, not_or, ne_eq, hdiff]
  · rw [hdone, Except.ok.injEq, hfalse]

/-- A proxy variable that is there with a former value is found out of date. -/
theorem stale_iff_renewed :
    ∃ (p : ProxyStore) (env : List EnvVar), Distinct env ∧ (∀ w ∈ env, Comparable w) ∧
      (∀ v ∈ p.vars, v.value ≠ .float .nan) ∧ p.isStale? env = .ok true ∧
      diff env (p.manage env) = [.text "HTTP_PROXY"] := by
  refine ⟨{ config := { http := .text "new" } },
    [⟨.text "HTTP_PROXY", .text "old"⟩, ⟨.text "FOO", .text "1"⟩], by unfold Distinct; decide +kernel,
    by unfold Comparable; decide +kernel, by decide +kernel, ?_, by decide +kernel⟩
  refine (stale_iff _ _ (by unfold Distinct; decide +kernel) (by unfold Comparable; decide +kernel)
    (by decide +kernel)).1.mpr ⟨by decide +kernel, fun h => ?_⟩
  exact h.1 (by decide +kernel)

/-- The proxy for the web is no longer in force, and exceptions from it are. The variable of the one is
left over and that of the other is missing, and nothing is found out of date. -/
theorem not_stale_exchanged :
    ∃ (p : ProxyStore) (env : List EnvVar), Distinct env ∧ (∀ w ∈ env, Comparable w) ∧
      p.vars = [⟨.text "NO_PROXY", .text "n"⟩, ⟨.text "HTTP_PROXY", .text ""⟩,
        ⟨.text "HTTPS_PROXY", .text ""⟩] ∧
      env = [⟨.text "HTTP_PROXY", .text "h"⟩] ∧ p.isStale? env = .ok false ∧
      p.manage env = [⟨.text "NO_PROXY", .text "n"⟩] ∧ diff env (p.manage env) ≠ [] ∧
      ¬ Current p env := by
  refine ⟨{ config := { exempt := .text "n" } }, [⟨.text "HTTP_PROXY", .text "h"⟩],
    by unfold Distinct; decide +kernel, by unfold Comparable; decide +kernel, rfl, rfl,
    by decide +kernel, by decide +kernel, by decide +kernel, ?_⟩
  unfold Current
  decide +kernel

end CatalogOperator.Proofs.Proxy
