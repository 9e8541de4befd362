import CatalogOperator.Manifest.Document
import CatalogOperator.Proofs.Manifest.Same
import CatalogOperator.Proxy.Sync
import Mathlib.Algebra.GroupWithZero.Nat
import Mathlib.Algebra.Order.BigOperators.Group.List
import Mathlib.Data.List.Pairwise

/-!
# `CatalogOperator.Proofs.Proxy.Settling`: when one pass puts the proxy variables in order

A container may list the same variable any number of times. Putting the proxy variables in order
drops the first variable of each proxy name and puts each value that is not empty in the place of the
next one, so how often a name was there decides what is there afterwards.

* `named_manage`: the variables of a proxy name afterwards. `others_manage`: all other variables are
  left as they are, in their order.
* `isStale_manage_iff`: when the variables no longer count as out of date afterwards.
* `settles_iff`: when one pass is enough, in both senses.
-/

set_option autoImplicit false

namespace CatalogOperator.Proofs.Proxy

open EnvList

/-! ### The variables of a name, and all others -/

/-- The variables of a name. -/
def named (env : List EnvVar) (name : Value) : List EnvVar :=
  env.filter fun v => v.name.same name

/-- The variables whose names are none of those of the given ones. -/
def others (vs env : List EnvVar) : List EnvVar :=
  env.filter fun w => vs.all fun v => !w.name.same v.name

/-- No two of the variables have the same name. -/
def Distinct (vs : List EnvVar) : Prop :=
  vs.Pairwise fun v w => v.name.same w.name = false

/-- Every variable belongs to one of the distinct names or to the others. -/
theorem length_eq_others_add {vs : List EnvVar} (hd : Distinct vs) (env : List EnvVar) :
    env.length = (others vs env).length + (vs.map fun v => (named env v.name).length).sum := by
  induction vs generalizing env with
  | nil => simp [others]
  | cons v vs ih =>
    obtain ⟨hv, hd⟩ := List.pairwise_cons.mp hd
    -- What is not named after `v` is split among the remaining names.
    let rest := env.filter fun w => !w.name.same v.name
    have hsplit : env.length = (named env v.name).length + rest.length :=
      List.length_eq_length_filter_add _
    have hothers : others vs rest = others (v :: vs) env := by
      simp only [others, rest, List.filter_filter, List.all_cons, Bool.and_comm]
    have hnamed : ∀ w ∈ vs, named rest w.name = named env w.name := by
      intro w hw
      simp only [named, rest, List.filter_filter]
      refine List.filter_congr fun u _ => ?_
      cases hu : u.name.same w.name with
      | false => rfl
      | true =>
        have huv : u.name.same v.name = false := by
          rw [Value.same_left_congr hu, Value.same_comm, hv w hw]
        simp [huv]
    have hsum : (vs.map fun w => (named rest w.name).length) =
        vs.map fun w => (named env w.name).length :=
      List.map_congr_left fun w hw => by rw [hnamed w hw]
    rw [hsplit, ih hd rest, hothers, hsum, List.map_cons, List.sum_cons]
    omega

/-! ### Erasing and putting in -/

/-- The first variable is one of those of a name or it is not. -/
theorem named_cons (v : EnvVar) (env : List EnvVar) (name : Value) :
    named (v :: env) name = if v.name.same name then v :: named env name else named env name :=
  List.filter_cons

/-- A variable is found under a name if the names count as equal and neither is the double that is no
number. -/
theorem isNamed_iff {v : EnvVar} {name : Value} :
    v.isNamed name = true ↔
      v.name ≠ .float .nan ∧ name ≠ .float .nan ∧ v.name.same name = true := by
  rw [EnvVar.isNamed, Bool.not_eq_true', Value.differs_eq_false]

/-- What is found under a name has it. -/
theorem same_of_isNamed {v : EnvVar} {name : Value} (h : v.isNamed name = true) :
    v.name.same name = true :=
  (isNamed_iff.mp h).2.2

/-- Under any name but the double that is no number all variables are found that have it. -/
theorem isNamed_eq {name : Value} (hname : name ≠ .float .nan) (v : EnvVar) :
    v.isNamed name = v.name.same name := by
  rw [Bool.eq_iff_iff, isNamed_iff]
  refine ⟨fun h => h.2.2, fun h => ⟨fun hv => hname ?_, hname, h⟩⟩
  rw [hv] at h
  exact Value.same_nan_iff.mp (Value.same_symm h)

/-- Erasing takes the first variable if it is found under the name. -/
theorem erase_cons (v : EnvVar) (env : List EnvVar) (name : Value) :
    erase (v :: env) name = if v.isNamed name then env else v :: erase env name := by
  unfold erase
  rw [List.eraseP_cons]
  cases v.isNamed name <;> rfl

section

variable {q : EnvVar → Bool}

/-- Erasing takes nothing of a kind that has no variable of the name. -/
theorem filter_erase {name : Value} (hq : ∀ v : EnvVar, v.name.same name = true → q v = false)
    (env : List EnvVar) : (erase env name).filter q = env.filter q := by
  induction env with
  | nil => rfl
  | cons v env ih =>
    rw [erase_cons]
    split
    · next hv => rw [List.filter_cons_of_neg (by simp [hq v (same_of_isNamed hv)])]
    · rw [List.filter_cons, List.filter_cons, ih]

/-- Putting in changes nothing of a kind that has no variable of the name. -/
theorem filter_put {v : EnvVar} (hq : ∀ w : EnvVar, w.name.same v.name = true → q w = false)
    (env : List EnvVar) : (put env v).filter q = env.filter q := by
  have hv : q v = false := hq v (Value.same_refl _)
  induction env with
  | nil => simp [put, hv]
  | cons w env ih =>
    unfold put
    split
    · next hw =>
      have hw' : q w = false := hq w (same_of_isNamed hw)
      rw [List.filter_cons_of_neg (by simp [hv]), List.filter_cons_of_neg (by simp [hw'])]
    · rw [List.filter_cons, List.filter_cons, ih]

/-- The same for several names. -/
theorem filter_eraseAll {vs : List EnvVar}
    (hq : ∀ v ∈ vs, ∀ w : EnvVar, w.name.same v.name = true → q w = false) (env : List EnvVar) :
    (vs.foldl (fun e v => erase e v.name) env).filter q = env.filter q := by
  induction vs generalizing env with
  | nil => rfl
  | cons v vs ih =>
    rw [List.foldl_cons, ih fun w hw => hq w (List.mem_cons_of_mem _ hw)]
    exact filter_erase (hq v List.mem_cons_self) env

/-- The same for several variables. -/
theorem filter_merge {vs : List EnvVar}
    (hq : ∀ v ∈ vs, ∀ w : EnvVar, w.name.same v.name = true → q w = false) (env : List EnvVar) :
    (merge env vs).filter q = env.filter q := by
  unfold merge
  induction vs generalizing env with
  | nil => rfl
  | cons v vs ih =>
    rw [List.foldl_cons, ih fun w hw => hq w (List.mem_cons_of_mem _ hw)]
    exact filter_put (hq v List.mem_cons_self) env

end

/-- Erasing takes the first variable of the name. -/
theorem named_erase {name : Value} (hname : name ≠ .float .nan) (env : List EnvVar) :
    named (erase env name) name = (named env name).tail := by
  induction env with
  | nil => rfl
  | cons v env ih =>
    rw [erase_cons, named_cons, isNamed_eq hname]
    split
    · rfl
    · next hv => rw [named_cons, if_neg hv, ih]

/-- What is put in takes the place of the first variable of its name. -/
theorem named_put {v : EnvVar} (hname : v.name ≠ .float .nan) (env : List EnvVar) :
    named (put env v) v.name = v :: (named env v.name).tail := by
  induction env with
  | nil => simp [put, named]
  | cons w env ih =>
    unfold put
    rw [named_cons w, isNamed_eq hname]
    split
    · rw [named_cons, if_pos (Value.same_refl _), List.tail_cons]
    · next hw => rw [named_cons, if_neg hw, ih]

/-- Erasing distinct names takes the first variable of each. -/
theorem named_eraseAll {vs : List EnvVar} (hd : Distinct vs) {v : EnvVar} (hv : v ∈ vs)
    (hname : v.name ≠ .float .nan) (env : List EnvVar) :
    named (vs.foldl (fun e v => erase e v.name) env) v.name = (named env v.name).tail := by
  induction vs generalizing env with
  | nil => cases hv
  | cons u vs ih =>
    obtain ⟨hu, hd⟩ := List.pairwise_cons.mp hd
    rw [List.foldl_cons]
    rcases List.mem_cons.mp hv with rfl | hv
    · rw [← named_erase hname]
      refine filter_eraseAll (fun w hw x hx => ?_) _
      rw [Value.same_left_congr hx, Value.same_comm, hu w hw]
    · rw [ih hd hv]
      exact congrArg List.tail (filter_erase (fun w hw => (Value.same_left_congr hw _).trans (hu v hv)) env)

/-- Merging variables of distinct names puts each in. -/
theorem named_merge {vs : List EnvVar} (hd : Distinct vs) {v : EnvVar} (hv : v ∈ vs)
    (hname : v.name ≠ .float .nan) (env : List EnvVar) :
    named (merge env vs) v.name = v :: (named env v.name).tail := by
  unfold merge
  induction vs generalizing env with
  | nil => cases hv
  | cons u vs ih =>
    obtain ⟨hu, hd⟩ := List.pairwise_cons.mp hd
    rw [List.foldl_cons]
    rcases List.mem_cons.mp hv with rfl | hv
    · rw [← named_put hname]
      refine filter_merge (fun w hw x hx => ?_) _
      rw [Value.same_left_congr hx, Value.same_comm, hu w hw]
    · rw [ih hd hv]
      exact congrArg (v :: List.tail ·)
        (filter_put (fun w hw => (Value.same_left_congr hw _).trans (hu v hv)) env)

/-! ### Putting the proxy variables in order -/

section

variable (p : ProxyStore) (env : List EnvVar)

/-- The proxy variables have three names. -/
theorem distinct_vars : Distinct p.vars := by
  have h : ∀ a b : String, (Value.text a).same (.text b) = decide (a = b) := by
    simp [Value.same, Value.canonical]
  simp [Distinct, ProxyStore.vars, ProxyConfig.bindings, h]

/-- The names of the proxy variables are texts. -/
theorem name_ne_nan {v : EnvVar} (hv : v ∈ p.vars) : v.name ≠ .float .nan := by
  obtain ⟨b, -, rfl⟩ := List.mem_map.mp hv
  exact Value.noConfusion

/-- What is left of a name: its first variable is gone, and a value that is not empty takes the place
of the next one or stands alone. -/
theorem named_manage {v : EnvVar} (hv : v ∈ p.vars) :
    named (p.manage env) v.name =
      if v.value.isTrue then v :: (named env v.name).tail.tail else (named env v.name).tail := by
  have hd := distinct_vars p
  have hname := name_ne_nan p hv
  have hkept := named_eraseAll hd hv hname env
  unfold ProxyStore.manage
  split
  · next htrue =>
    rw [named_merge (hd.filter _) (List.mem_filter.mpr ⟨hv, htrue⟩) hname, hkept]
  · next hfalse =>
    rw [← hkept]
    -- A variable that is put in has a value that is not empty, so it is another one.
    refine filter_merge (fun w hw x hx => ?_) _
    obtain ⟨hw, htrue⟩ := List.mem_filter.mp hw
    have hne : w ≠ v := by
      rintro rfl
      exact hfalse htrue
    have hsymm : Std.Symm fun a b : EnvVar => a.name.same b.name = false :=
      ⟨fun a b hab => (Value.same_comm _ _).trans hab⟩
    rw [Value.same_left_congr hx]
    exact hd.forall hw hv hne

/-- All other variables are left as they are. -/
theorem others_manage : others p.vars (p.manage env) = others p.vars env := by
  have hq : ∀ v ∈ p.vars, ∀ w : EnvVar, w.name.same v.name = true →
      (p.vars.all fun v => !w.name.same v.name) = false := by
    intro v hv w hw
    rw [List.all_eq_false]
    exact ⟨v, hv, by simp [hw]⟩
  unfold ProxyStore.manage
  exact (filter_merge (fun v hv => hq v (List.mem_filter.mp hv).1) _).trans (filter_eraseAll hq env)

/-- Under every proxy name there is the value in force and nothing else, or nothing at all if that
value is empty. -/
def Settled : Prop :=
  ∀ v ∈ p.vars, named env v.name = if v.value.isTrue then [v] else []

/-- No proxy name is repeated, except once for a value that is not empty. -/
def Sparse : Prop :=
  ∀ v ∈ p.vars, (named env v.name).length ≤ if v.value.isTrue then 2 else 1

/-- One pass is enough for variables that are sparse. -/
theorem settled_manage_iff : Settled p (p.manage env) ↔ Sparse p env := by
  refine forall₂_congr fun v hv => ?_
  rw [named_manage p env hv]
  split
  · rw [List.cons_eq_cons, ← List.length_eq_zero_iff, List.length_tail, List.length_tail]
    simp only [true_and]
    omega
  · rw [← List.length_eq_zero_iff, List.length_tail]
    omega

/-- A second pass drops variables again unless they were sparse before the first one. -/
theorem length_manage_manage_iff :
    (p.manage (p.manage env)).length = (p.manage env).length ↔ Sparse p env := by
  have hd := distinct_vars p
  have hnames : ∀ v ∈ p.vars,
      (named (p.manage (p.manage env)) v.name).length ≤ (named (p.manage env) v.name).length ∧
        ((named (p.manage (p.manage env)) v.name).length = (named (p.manage env) v.name).length ↔
          (named env v.name).length ≤ if v.value.isTrue then 2 else 1) := by
    intro v hv
    rw [named_manage p (p.manage env) hv, named_manage p env hv]
    split
    · simp only [List.length_cons, List.length_tail, List.tail_cons]
      omega
    · simp only [List.length_tail]
      omega
  rw [length_eq_others_add hd, length_eq_others_add hd (p.manage env), others_manage, others_manage]
  -- No name has more variables than before, so the sums agree only if all of their terms do.
  simp only [Sparse, ProxyStore.vars, ProxyConfig.bindings, List.map_cons, List.map_nil,
    List.sum_cons, List.sum_nil, List.forall_mem_cons, List.not_mem_nil, false_imp_iff,
    implies_true, and_true] at hnames ⊢
  omega

end

/-! ### Being out of date -/

/-- Variables of the same name have values that are not told apart. -/
def Agreeing (vs : List EnvVar) : Prop :=
  ∀ v ∈ vs, ∀ w ∈ vs, v.name.same w.name = true → v.value.differs w.value = false

/-- Whether variables agree depends neither on their order nor on how often they stand there. -/
theorem agreeing_congr {vs ws : List EnvVar} (h : ∀ v, v ∈ vs ↔ v ∈ ws) :
    Agreeing vs ↔ Agreeing ws := by
  simp only [Agreeing, h]

/-- The variables of a name are those that have it. -/
theorem mem_named {env : List EnvVar} {v : EnvVar} {name : Value} :
    v ∈ named env name ↔ v ∈ env ∧ v.name.same name = true :=
  List.mem_filter

/-- Variables that are named apart have at most one of each name. -/
theorem length_named_le_one {env : List EnvVar} (hd : Distinct env) (name : Value) :
    (named env name).length ≤ 1 := by
  have hpair : Distinct (named env name) := hd.filter _
  match hl : named env name with
  | [] => simp
  | [_] => simp
  | u :: w :: rest =>
    rw [hl] at hpair
    have hu := mem_named.mp (hl ▸ List.mem_cons_self : u ∈ named env name)
    have hw := mem_named.mp (hl ▸ List.mem_cons_of_mem _ List.mem_cons_self : w ∈ named env name)
    have huw := (List.pairwise_cons.mp hpair).1 w List.mem_cons_self
    rw [Value.same_trans hu.2 (Value.same_symm hw.2)] at huw
    cases huw

/-- What is looked up is the last variable of the name. -/
theorem last?_eq (env : List EnvVar) (name : Value) :
    last? env name = (named env name).getLast?.map (·.value) := by
  rw [last?, named, ← List.head?_filter, List.filter_reverse, List.head?_reverse]

/-- So the value in force is that of the last variable of the name. -/
theorem inForce_eq (env : List EnvVar) (name : Value) :
    inForce env name = ((named env name).getLast?.map (·.value)).getD .null := by
  rw [inForce, last?_eq]

/-- A variable is overridden by the last one of its name if the values are told apart. -/
theorem overrides_eq_false_iff (env : List EnvVar) (v : EnvVar) :
    ProxyStore.overrides env v = false ↔
      ∀ w, (named env v.name).getLast? = some w → w.value.differs v.value = false := by
  have hpresent : hasName env v.name = !(named env v.name).isEmpty := by
    rw [hasName, Bool.eq_iff_iff]
    simp [named, List.filter_eq_nil_iff]
  rw [ProxyStore.overrides, hpresent, inForce_eq]
  cases h : (named env v.name).getLast? with
  | none => simp [List.getLast?_eq_none_iff.mp h]
  | some w =>
    have hne : (named env v.name).isEmpty = false := by
      cases hl : named env v.name with
      | nil => simp [hl] at h
      | cons => rfl
    simp [hne]

/-- Variables agree if none is overridden. -/
theorem agreeing_iff (env : List EnvVar) :
    Agreeing env ↔ ∀ v ∈ env, ProxyStore.overrides env v = false := by
  simp only [overrides_eq_false_iff]
  constructor
  · intro h v hv w hw
    obtain ⟨hmem, hname⟩ := mem_named.mp (List.mem_of_getLast? hw)
    exact h w hmem v hv hname
  · intro h v hv w hw hname
    -- The last variable of the name they share is told apart from neither.
    have hnamed : named env v.name = named env w.name := by
      refine List.filter_congr fun u _ => ?_
      rw [Value.same_comm, Value.same_left_congr hname, Value.same_comm]
    have hne : named env w.name ≠ [] :=
      List.ne_nil_of_mem (mem_named.mpr ⟨hw, Value.same_refl _⟩)
    have hlast := List.getLast?_eq_some_getLast hne
    exact Value.not_differs_of_not_differs (h v hv _ (hnamed.symm ▸ hlast)) (h w hw _ hlast)

/-- A variable is among the others or has one of the names. -/
theorem mem_iff (vs : List EnvVar) {env : List EnvVar} {w : EnvVar} :
    w ∈ env ↔ w ∈ others vs env ∨ ∃ v ∈ vs, w ∈ named env v.name := by
  simp only [others, named, List.mem_filter, List.all_eq_true, Bool.not_eq_true']
  grind

section

variable {p : ProxyStore} {env : List EnvVar}

/-- What a pass leaves if it is enough: the values that are not empty, and all other variables. -/
theorem mem_of_settled (h : Settled p env) {w : EnvVar} :
    w ∈ env ↔ w ∈ (p.vars.filter fun v => v.value.isTrue) ++ others p.vars env := by
  rw [mem_iff p.vars, List.mem_append, or_comm, List.mem_filter]
  refine or_congr_left ⟨?_, ?_⟩
  · rintro ⟨v, hv, hw⟩
    rw [h v hv] at hw
    split at hw
    · next htrue =>
      obtain rfl := List.mem_singleton.mp hw
      exact ⟨hv, htrue⟩
    · cases hw
  · rintro ⟨hw, htrue⟩
    refine ⟨w, hw, ?_⟩
    rw [h w hw, if_pos htrue]
    exact List.mem_singleton_self w

/-- After a pass that is enough, the variables are out of date only if some of one name disagree. -/
theorem isStale_manage_iff (h : Sparse p env) :
    p.isStale (p.manage env) = false ↔
      Agreeing ((p.vars.filter fun v => v.value.isTrue) ++ others p.vars env) := by
  have hsettled : Settled p (p.manage env) := (settled_manage_iff p env).mpr h
  -- A settled environment is sparse, so one more pass settles it again.
  have hagain : Settled p (p.manage (p.manage env)) := by
    refine (settled_manage_iff p _).mpr fun v hv => ?_
    rw [hsettled v hv]
    split <;> simp
  have hmem : ∀ w, w ∈ p.manage (p.manage env) ↔ w ∈ p.manage env := by
    intro w
    rw [mem_of_settled hagain, mem_of_settled hsettled, others_manage p (p.manage env)]
  rw [← others_manage, ← agreeing_congr fun w => mem_of_settled hsettled, agreeing_iff]
  simp [ProxyStore.isStale, (length_manage_manage_iff p env).mpr h, hmem]

/-- Names can be looked up if those that are not proxy names can. -/
theorem fault?_eq_none_iff :
    EnvList.fault? env = none ↔ ∀ w ∈ others p.vars env, w.name.isScalar = true := by
  have hproxy : ∀ v ∈ p.vars, ∀ w ∈ named env v.name, w.name.isScalar = true := by
    intro v hv w hw
    obtain ⟨b, -, rfl⟩ := List.mem_map.mp hv
    have hname := Value.same_text_iff.mp (mem_named.mp hw).2
    rw [hname]
    rfl
  rw [EnvList.fault?, Option.map_eq_none_iff, List.find?_eq_none]
  constructor
  · intro h w hw
    simpa using h w (List.mem_filter.mp hw).1
  · intro h w hw
    rcases (mem_iff p.vars).mp hw with hw | ⟨v, hv, hw⟩
    · simp [h w hw]
    · simp [hproxy v hv w hw]

end

/-! ### When one pass is enough -/

/-- One pass leaves under each proxy name the value in force and nothing else exactly if no proxy
name was repeated, except once for a value that is not empty. The variables then count as up to date
exactly if, besides, all other variables that share a name have one value, and no name prevents it
from being looked up. -/
theorem settles_iff (p : ProxyStore) (env : List EnvVar) :
    (Settled p (p.manage env) ↔ Sparse p env) ∧
      (p.isStale? (p.manage env) = .ok false ↔
        Sparse p env ∧ Agreeing ((p.vars.filter fun v => v.value.isTrue) ++ others p.vars env) ∧
          EnvList.fault? env = none) := by
  refine ⟨settled_manage_iff p env, ?_⟩
  have hfault : EnvList.fault? (p.manage env) = none ↔ EnvList.fault? env = none := by
    rw [fault?_eq_none_iff, others_manage, ← fault?_eq_none_iff]
  rw [← hfault, ProxyStore.isStale?]
  by_cases h : Sparse p env
  · rw [if_neg (by simp [(length_manage_manage_iff p env).mpr h]), ← isStale_manage_iff h]
    cases EnvList.fault? (p.manage env) <;> simp [h]
  · rw [if_pos (by simp [(length_manage_manage_iff p env), h])]
    simp [h]

/-- The document of a deployment whose container lists a proxy variable three times. -/
def repeated : Value :=
  let var value := Value.map [(.text "name", .text "HTTP_PROXY"), (.text "value", .text value)]
  .map [(.text "kind", .text "Deployment"), (.text "apiVersion", .text "apps/v1"),
    (.text "metadata", .map [(.text "name", .text "c"), (.text "namespace", .text "n")]),
    (.text "spec", .map [(.text "template", .map [(.text "spec", .map [(.text "containers",
      .list [.map [(.text "env", .list [var "a", var "b", var "c"])]])])])])]

/-- What is read from the document. -/
def repeatedDeployment : Deployment :=
  let var value := EnvVar.mk (.text "HTTP_PROXY") (.text value)
  { name := .text "c", ns := .text "n",
    containers := [{ name := .text "", env := [var "a", var "b", var "c"] }] }

/-- A variable listed three times is still there twice after one pass, and one of them has a value
that is not in force. -/
theorem not_settles_repeated :
    Document.deployment repeated = .ok repeatedDeployment ∧
      ∃ p : ProxyStore, p.manage repeatedDeployment.env =
          [⟨.text "HTTP_PROXY", .text "x"⟩, ⟨.text "HTTP_PROXY", .text "c"⟩] ∧
        ¬ Settled p (p.manage repeatedDeployment.env) ∧
        p.isStale? (p.manage repeatedDeployment.env) = .ok true := by
  refine ⟨by decide +kernel, { config := { http := .text "x" } }, by decide +kernel, ?_,
    by decide +kernel⟩
  unfold Settled
  decide +kernel

end CatalogOperator.Proofs.Proxy
