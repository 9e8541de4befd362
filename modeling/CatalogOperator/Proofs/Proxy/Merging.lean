import CatalogOperator.Proofs.Proxy.Arrangement

/-!
# `CatalogOperator.Proofs.Proxy.Merging`: variables merged into an environment

Merging puts the given variables in one after the other, and each of them finds an environment that
the ones before have changed already. What comes of it depends on little of that: a name keeps the
place that it has from the beginning or gets the next one at the end when it occurs for the first time,
and its variable is the one that was put in last. So merging once more changes nothing, and the names of
which the values differ can be read off what was merged.

The double that is no number is the name of none, so a variable with that name is found by nothing and
always gets a place of its own. A comparison looks names up in a table and finds it there.

* `Apart`: variables of which none is found under the name of another.
* `merge_eq`: the variables that were there before and the `newcomers`, each in its `latest` form.
* `label`: a name up to the ways of writing it. `labels_merge`: the names in their order.
* `value?_merge`: what is found afterwards. `merge_merge_iff`: when merging once more changes nothing.
* `any_diff`: the names that a comparison lists. `Told`: those that it lists after merging.
* `merged`: all of it. `not_merged_unusable` are variables whose names cannot be compared.
-/

set_option autoImplicit false

namespace CatalogOperator.Proofs.Proxy

open EnvList

/-! ### Variables and the names under which they are found -/

/-- None of the variables is found under the name of another. -/
def Apart (vs : List EnvVar) : Prop :=
  vs.Pairwise fun v w => v.isNamed w.name = false

/-- A variable is found under its own name unless that is the double that is no number. -/
theorem isNamed_self_iff {v : EnvVar} : v.isNamed v.name = true ↔ v.name ≠ .float .nan := by
  simp [isNamed_iff]

/-- Nothing is found under the double that is no number. -/
theorem isNamed_nan (v : EnvVar) : v.isNamed (.float .nan) = false := by
  simp [EnvVar.isNamed, Value.differs]

/-- Whether one of two variables is found under the name of the other does not depend on their order. -/
theorem isNamed_comm (v w : EnvVar) : v.isNamed w.name = w.isNamed v.name := by
  rw [Bool.eq_iff_iff, isNamed_iff, isNamed_iff, Value.same_comm]
  exact ⟨fun h => ⟨h.2.1, h.1, h.2.2⟩, fun h => ⟨h.2.1, h.1, h.2.2⟩⟩

/-- Variables that are found under the names of each other are found under the same names. -/
theorem isNamed_congr {v w : EnvVar} (h : v.isNamed w.name = true) (n : Value) :
    v.isNamed n = w.isNamed n := by
  obtain ⟨hv, hw, hsame⟩ := isNamed_iff.mp h
  rw [Bool.eq_iff_iff, isNamed_iff, isNamed_iff, Value.same_left_congr hsame]
  simp [hv, hw]

/-- Under such names the same variables are found. -/
theorem isNamed_name_congr {v w : EnvVar} (h : v.isNamed w.name = true) (u : EnvVar) :
    u.isNamed v.name = u.isNamed w.name := by
  rw [isNamed_comm u v, isNamed_comm u w, isNamed_congr h]

/-- Variables named apart are found apart. -/
theorem Distinct.apart {vs : List EnvVar} (hd : Distinct vs) : Apart vs :=
  hd.imp isNamed_of_same_false

/-- Away from the double that is no number, variables that are found apart are named apart. -/
theorem Apart.distinct_filter {vs : List EnvVar} (hd : Apart vs) :
    Distinct (vs.filter fun v => v.name ≠ .float .nan) := by
  rw [Distinct, List.pairwise_filter]
  refine hd.imp fun {v w} hvw _ hw => ?_
  rwa [isNamed_eq (by simpa using hw)] at hvw

/-- Of each such name there is at most one variable. -/
theorem Apart.length_named_le_one {vs : List EnvVar} (hd : Apart vs) {n : Value}
    (hn : n ≠ .float .nan) : (named vs n).length ≤ 1 := by
  have hnamed : named (vs.filter fun v => v.name ≠ .float .nan) n = named vs n := by
    rw [named, named, List.filter_filter]
    refine List.filter_congr fun v _ => ?_
    by_cases hv : v.name = .float .nan
    · have hsame : v.name.same n = false := by
        rw [Bool.eq_false_iff, hv, Ne, Value.same_comm, Value.same_nan_iff]
        exact hn
      simp [hsame]
    · simp [hv]
  rw [← hnamed]
  exact Proxy.length_named_le_one hd.distinct_filter n

/-! ### Putting in -/

section

variable {env : List EnvVar} {v : EnvVar}

/-- What is put in is one of the variables afterwards, and all others were there before. -/
theorem mem_of_mem_put {u : EnvVar} (h : u ∈ put env v) : u ∈ env ∨ u = v := by
  induction env with
  | nil => exact .inr (List.mem_singleton.mp h)
  | cons w env ih =>
    unfold put at h
    split at h
    · exact (List.mem_cons.mp h).symm.imp_left (List.mem_cons_of_mem w)
    · rcases List.mem_cons.mp h with rfl | h
      · exact .inl List.mem_cons_self
      · exact (ih h).imp_left (List.mem_cons_of_mem w)

/-- A relation among the variables still holds if it holds of each variable and a new one at the end,
and of one that takes the place of another if it held of that. -/
theorem pairwise_put {R : EnvVar → EnvVar → Prop} (h : env.Pairwise R)
    (hnew : ∀ w, w.isNamed v.name = false → R w v)
    (hplace : ∀ w u, w.isNamed v.name = true → R w u → R v u) : (put env v).Pairwise R := by
  induction env with
  | nil => exact List.pairwise_singleton R v
  | cons w env ih =>
    obtain ⟨hw, hrest⟩ := List.pairwise_cons.mp h
    unfold put
    split
    · next hnamed =>
      exact List.pairwise_cons.mpr ⟨fun u hu => hplace w u hnamed (hw u hu), hrest⟩
    · next hnamed =>
      refine List.pairwise_cons.mpr ⟨fun u hu => ?_, ih hrest⟩
      rcases mem_of_mem_put hu with hu | rfl
      · exact hw u hu
      · exact hnew w (by simpa using hnamed)

/-- Putting in leaves variables found apart. -/
theorem apart_put (hd : Apart env) (v : EnvVar) : Apart (put env v) :=
  pairwise_put hd (fun _ h => h) fun _ _ hnamed h => (isNamed_congr hnamed _).symm.trans h

/-- It leaves them named apart, unless the name is the double that is no number. -/
theorem distinct_put (hd : Distinct env) (hv : v.name ≠ .float .nan) : Distinct (put env v) :=
  pairwise_put hd (fun w h => (isNamed_eq hv w).symm.trans h) fun _ _ hnamed h =>
    (Value.same_left_congr (same_of_isNamed hnamed) _).symm.trans h

/-- A variable takes the place of the one that is found under its name. -/
theorem put_of_present (hd : Apart env) (h : ∃ w ∈ env, w.isNamed v.name = true) :
    put env v = env.map fun w => if w.isNamed v.name then v else w := by
  induction env with
  | nil => simp at h
  | cons w env ih =>
    obtain ⟨hw, hrest⟩ := List.pairwise_cons.mp hd
    rw [put, List.map_cons]
    by_cases hnamed : w.isNamed v.name = true
    · -- No variable that follows is found under the name as well.
      rw [if_pos hnamed, if_pos hnamed, List.map_congr_left (g := id) fun u hu => ?_, List.map_id]
      rw [← isNamed_name_congr hnamed, isNamed_comm, hw u hu]
      rfl
    · have hmem : ∃ u ∈ env, u.isNamed v.name = true := by simpa [hnamed] using h
      rw [if_neg hnamed, if_neg hnamed, ih hrest hmem]

/-- What is found under a name after a variable has been put in. -/
theorem first?_put (env : List EnvVar) (v : EnvVar) (n : Value) :
    first? (put env v) n = if v.isNamed n then some v else first? env n := by
  unfold first?
  induction env with
  | nil => cases h : v.isNamed n <;> simp [put, h]
  | cons w env ih =>
    unfold put
    split
    · next hw =>
      -- The variable that gives way is found under the same names.
      rw [List.find?_cons, List.find?_cons, isNamed_congr hw]
      cases v.isNamed n <;> rfl
    · next hw =>
      rw [List.find?_cons, List.find?_cons, ih]
      cases hwn : w.isNamed n with
      | false => rfl
      | true =>
        -- The variable at hand is found under the name, so the one that is put in is not.
        have hv : v.isNamed n = false := by
          rw [Bool.eq_false_iff]
          intro hv
          obtain ⟨hwname, hn, hwsame⟩ := isNamed_iff.mp hwn
          obtain ⟨hvname, -, hvsame⟩ := isNamed_iff.mp hv
          exact hw (isNamed_iff.mpr
            ⟨hwname, hvname, Value.same_trans hwsame (Value.same_symm hvsame)⟩)
        simp [hv]

end

/-! ### Merging -/

section

variable {env : List EnvVar}

/-- Merging leaves variables found apart. -/
theorem apart_merge (hd : Apart env) (overrides : List EnvVar) : Apart (merge env overrides) := by
  unfold merge
  induction overrides generalizing env with
  | nil => exact hd
  | cons v vs ih => exact ih (apart_put hd v)

/-- Merging names no two variables alike, unless they are both named by the double that is no number. -/
theorem distinct_merge (hd : Distinct env) {overrides : List EnvVar}
    (h : ∀ v ∈ overrides, v.name ≠ .float .nan) : Distinct (merge env overrides) := by
  unfold merge
  induction overrides generalizing env with
  | nil => exact hd
  | cons v vs ih =>
    rw [List.forall_mem_cons] at h
    exact ih (distinct_put hd h.1) h.2

/-- The first of several variables is the last to be found from the end. -/
theorem first?_cons_reverse (v : EnvVar) (vs : List EnvVar) (n : Value) :
    first? (v :: vs).reverse n =
      (first? vs.reverse n).or (if v.isNamed n then some v else none) := by
  rw [List.reverse_cons, first?, List.find?_append]
  cases h : v.isNamed n <;> simp [first?, h]

/-- What is found under a name is the last variable that was merged under it, or else the one that was
there before. -/
theorem first?_merge (env overrides : List EnvVar) (n : Value) :
    first? (merge env overrides) n = (first? overrides.reverse n).or (first? env n) := by
  unfold merge
  induction overrides generalizing env with
  | nil => rfl
  | cons v vs ih =>
    rw [List.foldl_cons, ih, first?_put, first?_cons_reverse, Option.or_assoc]
    cases v.isNamed n <;> rfl

/-- The same for values. -/
theorem value?_merge (env overrides : List EnvVar) (n : Value) :
    value? (merge env overrides) n = (value? overrides.reverse n).or (value? env n) := by
  rw [value?, first?_merge, Option.map_or]
  rfl

/-- No list has a first variable of that name. -/
theorem first?_nan (env : List EnvVar) : first? env (.float .nan) = none := by
  rw [first?, List.find?_eq_none]
  intro v _
  simp [isNamed_nan]

/-- The variables that have a new name: of each name that is found in the environment under none, the
first one. -/
def newcomers (env overrides : List EnvVar) : List EnvVar :=
  (overrides.filter fun v => !env.any fun w => w.isNamed v.name).eraseDupsBy fun v w =>
    v.isNamed w.name

/-- What becomes of a variable: the last of those that are merged under its name, or else it stays. -/
def latest (overrides : List EnvVar) (v : EnvVar) : EnvVar :=
  (first? overrides.reverse v.name).getD v

/-- Leaving out repetitions adds nothing. -/
theorem mem_of_mem_eraseDupsBy {α : Type} {r : α → α → Bool} {a : α} :
    ∀ {as : List α}, a ∈ as.eraseDupsBy r → a ∈ as
  | [], h => by simp at h
  | b :: as, h => by
    rw [List.eraseDupsBy_cons] at h
    rcases List.mem_cons.mp h with rfl | h
    · exact List.mem_cons_self
    · exact List.mem_cons_of_mem b (List.mem_filter.mp (mem_of_mem_eraseDupsBy h)).1
termination_by as => as.length
decreasing_by exact Nat.lt_succ_of_le (List.length_filter_le _ _)

/-- In the environment nothing is found under the name of a newcomer. -/
theorem absent_of_mem_newcomers {overrides : List EnvVar} {v : EnvVar}
    (h : v ∈ newcomers env overrides) : ∀ w ∈ env, w.isNamed v.name = false := by
  have hnew := (List.mem_filter.mp (mem_of_mem_eraseDupsBy h)).2
  simpa using hnew

/-- The first variable is a newcomer if its name is new, and then the name is new no more. -/
theorem newcomers_cons_of_absent {v : EnvVar} (h : ∀ w ∈ env, w.isNamed v.name = false)
    (vs : List EnvVar) : newcomers env (v :: vs) = v :: newcomers (env ++ [v]) vs := by
  have hany : (env.any fun w => w.isNamed v.name) = false := by simpa using h
  rw [newcomers, List.filter_cons_of_pos (by simp [hany]), List.eraseDupsBy_cons,
    List.filter_filter, newcomers]
  congr 2
  refine List.filter_congr fun u _ => ?_
  rw [List.any_append, isNamed_comm u v, Bool.and_comm]
  simp

/-- Otherwise there are the same newcomers without it. -/
theorem newcomers_cons_of_present {v : EnvVar} (h : ∃ w ∈ env, w.isNamed v.name = true)
    (vs : List EnvVar) : newcomers env (v :: vs) = newcomers env vs := by
  have hany : (env.any fun w => w.isNamed v.name) = true := by simpa using h
  rw [newcomers, List.filter_cons_of_neg (by simp [hany]), newcomers]

/-- A variable that takes the place of another leaves the same names new. -/
theorem newcomers_put {v : EnvVar} (hd : Apart env) (h : ∃ w ∈ env, w.isNamed v.name = true)
    (vs : List EnvVar) : newcomers (put env v) vs = newcomers env vs := by
  unfold newcomers
  congr 1
  refine List.filter_congr fun u _ => ?_
  rw [put_of_present hd h, List.any_map]
  congr 2
  funext w
  rw [Function.comp_apply]
  split
  · next hw => exact (isNamed_congr hw _).symm
  · rfl

/-- A variable that is put in first is what becomes of those of its name, if no later one does. -/
theorem latest_cons (v : EnvVar) (vs : List EnvVar) (w : EnvVar) :
    latest (v :: vs) w = latest vs (if w.isNamed v.name then v else w) := by
  rw [latest, first?_cons_reverse, isNamed_comm v w]
  by_cases hw : w.isNamed v.name = true
  · have hfirst : first? vs.reverse w.name = first? vs.reverse v.name :=
      congrArg (fun p => List.find? p vs.reverse) (funext fun u => isNamed_name_congr hw u)
    rw [if_pos hw, if_pos hw, hfirst, latest]
    cases first? vs.reverse v.name <;> rfl
  · rw [if_neg hw, if_neg hw, Option.or_none]
    rfl

/-- Merging leaves the variables that were there before and the newcomers, each in its latest form. -/
theorem merge_eq (hd : Apart env) (overrides : List EnvVar) :
    merge env overrides = (env ++ newcomers env overrides).map (latest overrides) := by
  induction overrides generalizing env with
  | nil =>
    have hlatest : latest [] = id := rfl
    simp [merge, newcomers, hlatest]
  | cons v vs ih =>
    have hstep : merge env (v :: vs) = merge (put env v) vs := rfl
    rw [hstep, ih (apart_put hd v)]
    by_cases h : ∃ w ∈ env, w.isNamed v.name = true
    · rw [newcomers_put hd h, newcomers_cons_of_present h, put_of_present hd h, List.map_append,
        List.map_append, List.map_map]
      congr 1
      · exact List.map_congr_left fun w _ => (latest_cons v vs w).symm
      · -- The newcomers are not found under the name, which is that of a variable at its place.
        refine List.map_congr_left fun u hu => ?_
        obtain ⟨w, hw, hnamed⟩ := h
        have hu' : ¬ u.isNamed v.name = true := by
          rw [← isNamed_name_congr hnamed, isNamed_comm, absent_of_mem_newcomers hu w hw]
          exact Bool.false_ne_true
        rw [latest_cons, if_neg hu']
    · have habsent : ∀ w ∈ env, w.isNamed v.name = false := by simpa using h
      rw [put_of_absent habsent, newcomers_cons_of_absent habsent, List.append_assoc,
        List.singleton_append]
      refine List.map_congr_left fun u hu => ?_
      rw [latest_cons]
      split
      · next hnamed =>
        -- Only the variable itself is found under its name.
        rcases List.mem_append.mp hu with hu | hu
        · rw [habsent u hu] at hnamed
          cases hnamed
        · rcases List.mem_cons.mp hu with rfl | hu
          · rfl
          · rw [isNamed_comm, absent_of_mem_newcomers hu v (by simp)] at hnamed
            cases hnamed
      · rfl

/-! ### Names in their order -/

/-- The name of a variable, up to the ways of writing it. -/
def label (v : EnvVar) : Value :=
  v.name.canonical

/-- A variable keeps its name. -/
theorem label_latest (overrides : List EnvVar) (v : EnvVar) :
    label (latest overrides v) = label v := by
  unfold latest
  cases hfirst : first? overrides.reverse v.name with
  | none => rfl
  | some w =>
    have hnamed : w.isNamed v.name = true := by simpa using List.find?_some hfirst
    exact of_decide_eq_true (same_of_isNamed hnamed)

/-- The names of the environment come first, in their order, and then the new ones in the order in
which they occur for the first time. -/
theorem labels_merge (hd : Apart env) (overrides : List EnvVar) :
    (merge env overrides).map label = (env ++ newcomers env overrides).map label := by
  rw [merge_eq hd, List.map_map]
  exact List.map_congr_left fun v _ => label_latest overrides v

/-! ### Merging once more -/

/-- A variable that is found apart from the others is what is found under its name. -/
theorem first?_of_mem (hd : Apart env) {v : EnvVar} (hv : v ∈ env)
    (hname : v.name ≠ .float .nan) : first? env v.name = some v := by
  induction env with
  | nil => cases hv
  | cons w env ih =>
    obtain ⟨hw, hrest⟩ := List.pairwise_cons.mp hd
    rw [first?, List.find?_cons]
    rcases List.mem_cons.mp hv with rfl | hv
    · rw [isNamed_self_iff.mpr hname]
    · rw [hw v hv]
      exact ih hrest hv

/-- Every variable is in its latest form after merging. -/
theorem latest_of_mem_merge (hd : Apart env) (overrides : List EnvVar) {v : EnvVar}
    (hv : v ∈ merge env overrides) : latest overrides v = v := by
  unfold latest
  cases hfirst : first? overrides.reverse v.name with
  | none => rfl
  | some w =>
    have hnamed : w.isNamed v.name = true := by simpa using List.find?_some hfirst
    have hfound := first?_of_mem (apart_merge hd overrides) hv (isNamed_iff.mp hnamed).2.1
    rw [first?_merge, hfirst] at hfound
    exact Option.some.inj hfound

/-- Items are left as they are if none of them repeats another. -/
theorem eraseDupsBy_eq_self {α : Type} {r : α → α → Bool} {as : List α}
    (h : ∀ a ∈ as, ∀ b ∈ as, r a b = false) : as.eraseDupsBy r = as := by
  induction as with
  | nil => rfl
  | cons a as ih =>
    have hrest : as.filter (fun b => decide (r b a = false)) = as :=
      List.filter_eq_self.mpr fun b hb =>
        decide_eq_true (h b (List.mem_cons_of_mem a hb) a List.mem_cons_self)
    rw [List.eraseDupsBy_cons, hrest,
      ih fun b hb c hc => h b (List.mem_cons_of_mem a hb) c (List.mem_cons_of_mem a hc)]

/-- After merging, no name of what was merged is new any more, except that under the double that is no
number nothing is found. -/
theorem newcomers_merge (env overrides : List EnvVar) :
    newcomers (merge env overrides) overrides =
      overrides.filter fun v => v.name = .float .nan := by
  have hnew : (overrides.filter fun v => !(merge env overrides).any fun w => w.isNamed v.name) =
      overrides.filter fun v => v.name = .float .nan := by
    refine List.filter_congr fun v hv => ?_
    by_cases hname : v.name = .float .nan
    · simp [isNamed_nan, hname]
    · have hfound : (first? (merge env overrides) v.name).isSome = true := by
        have hlast : (first? overrides.reverse v.name).isSome = true :=
          List.find?_isSome.mpr ⟨v, List.mem_reverse.mpr hv, isNamed_self_iff.mpr hname⟩
        rw [first?_merge, Option.isSome_or, hlast, Bool.true_or]
      simpa [hname, first?] using hfound
  rw [newcomers, hnew]
  refine eraseDupsBy_eq_self fun v hv _ _ => ?_
  have hname : v.name = .float .nan := by simpa using (List.mem_filter.mp hv).2
  rw [isNamed_comm, hname, isNamed_nan]

/-- Merging the same variables once more adds those that are named by the double that is no number, and
changes nothing else. -/
theorem merge_merge (hd : Apart env) (overrides : List EnvVar) :
    merge (merge env overrides) overrides =
      merge env overrides ++ overrides.filter fun v => v.name = .float .nan := by
  rw [merge_eq (apart_merge hd overrides), newcomers_merge, List.map_append]
  congr 1
  · exact (List.map_congr_left fun v hv => latest_of_mem_merge hd overrides hv).trans (List.map_id _)
  · refine (List.map_congr_left fun v hv => ?_).trans (List.map_id _)
    have hname : v.name = .float .nan := by simpa using (List.mem_filter.mp hv).2
    rw [latest, hname, first?_nan]
    rfl

/-- So it changes nothing at all exactly if there is none of these. -/
theorem merge_merge_iff (hd : Apart env) (overrides : List EnvVar) :
    merge (merge env overrides) overrides = merge env overrides ↔
      ∀ v ∈ overrides, v.name ≠ .float .nan := by
  rw [merge_merge hd, List.append_right_eq_self, List.filter_eq_nil_iff]
  simp

end

/-! ### The names whose values differ -/

/-- If no variable has a name, there are none of it. -/
theorem named_eq_nil {env : List EnvVar} {n : Value} (h : ∀ v ∈ env, v.name.same n = false) :
    named env n = [] :=
  List.isEmpty_iff.mp (named_isEmpty_iff.mpr h)

/-- A comparison lists the names whose values in force differ. -/
theorem any_diff (current desired : List EnvVar) (n : Value) :
    ((diff current desired).any fun m => m.same n) =
      (inForce current n).differs (inForce desired n) := by
  rw [Bool.eq_iff_iff, List.any_eq_true]
  constructor
  · rintro ⟨m, hm, hsame⟩
    rw [← inForce_congr hsame, ← inForce_congr hsame]
    exact (List.mem_filter.mp hm).2
  · intro hdiffers
    rcases exists_named_or_absent (current ++ desired) n with ⟨v, hv, hname⟩ | habsent
    · obtain ⟨m, hm, hsame⟩ := exists_same_of_mem hv
      have hmn := Value.same_trans hsame hname
      refine ⟨m, List.mem_filter.mpr ⟨hm, ?_⟩, hmn⟩
      rwa [inForce_congr hmn, inForce_congr hmn]
    · -- Neither list has the name, so both values are absent.
      have hcurrent : named current n = [] :=
        named_eq_nil fun v hv => habsent v (List.mem_append_left _ hv)
      have hdesired : named desired n = [] :=
        named_eq_nil fun v hv => habsent v (List.mem_append_right _ hv)
      rw [inForce_of_absent hcurrent, inForce_of_absent hdesired] at hdiffers
      exact absurd hdiffers (by decide)

/-- What is looked up under a name after a variable has been put in. -/
theorem last?_put {env : List EnvVar} (hd : Apart env) (v : EnvVar) (n : Value) :
    last? (put env v) n = if v.name.same n then some v.value else last? env n := by
  rw [last?_eq, last?_eq]
  cases hsame : v.name.same n with
  | false =>
    have hother : named (put env v) n = named env n := by
      refine filter_put (fun w hw => ?_) env
      rw [Value.same_left_congr hw, hsame]
    rw [hother]
    rfl
  | true =>
    rw [← named_congr hsame]
    by_cases hname : v.name = .float .nan
    · -- Such a variable is put at the end.
      have habsent : ∀ w ∈ env, w.isNamed v.name = false := by
        intro w _
        rw [hname, isNamed_nan]
      rw [put_of_absent habsent, named, List.filter_append, List.filter_singleton,
        Value.same_refl, cond_true, List.getLast?_concat]
      rfl
    · -- It takes the place of the only variable of its name.
      have hnone : (named env v.name).tail = [] := by
        have hone := hd.length_named_le_one hname
        rw [← List.length_eq_zero_iff, List.length_tail]
        omega
      rw [named_put hname, hnone]
      rfl

/-- What is looked up under a name is the last variable that was merged under it, or else the one that
was there before. -/
theorem last?_merge {env : List EnvVar} (hd : Apart env) (overrides : List EnvVar) (n : Value) :
    last? (merge env overrides) n = (last? overrides n).or (last? env n) := by
  unfold merge
  induction overrides generalizing env with
  | nil => rfl
  | cons v vs ih =>
    have hcons : last? (v :: vs) n =
        (last? vs n).or (if v.name.same n then some v.value else none) := by
      rw [last?, List.reverse_cons, List.find?_append, Option.map_or, last?]
      cases h : v.name.same n <;> simp [h]
    rw [List.foldl_cons, ih (apart_put hd v), last?_put hd, hcons, Option.or_assoc]
    cases v.name.same n <;> rfl

/-- The names that a comparison tells after merging: those that are overridden, if they were not there
before, or if they had another value. A value that is absent counts as if its name was, and the double
that is no number is another value than itself, whether it is overridden or not. -/
def Told (env overrides : List EnvVar) (n : Value) : Prop :=
  match last? overrides n, last? env n with
  | some v, some w => w.differs v = true
  | some v, none => v ≠ .null
  | none, some w => w = .float .nan
  | none, none => False

/-- Only the double that is no number is told apart from itself. -/
theorem differs_self_iff (v : Value) : v.differs v = true ↔ v = .float .nan := by
  simp [Value.differs]

/-- Everything that is there is told apart from what is absent. -/
theorem null_differs_iff (v : Value) : Value.differs .null v = true ↔ v ≠ .null := by
  rw [Ne, ← Value.same_null_iff, Value.same_comm]
  by_cases hv : v = .float .nan
  · subst hv
    decide
  · simp [Value.differs, hv]

/-- The value in force under a name is told apart from the one after merging exactly if the name is
told. -/
theorem differs_merge_iff {env : List EnvVar} (hd : Apart env) (overrides : List EnvVar)
    (n : Value) :
    (inForce env n).differs (inForce (merge env overrides) n) = true ↔ Told env overrides n := by
  rw [inForce, inForce, last?_merge hd, Told]
  -- One case for each of what is overridden and what was there, as in `Told`.
  cases last? overrides n with
  | some v =>
    cases last? env n with
    | some w => rfl
    | none => exact null_differs_iff v
  | none =>
    cases last? env n with
    | some w => exact differs_self_iff w
    | none => simp [differs_self_iff]

/-- For values that are there and are equal to themselves, the names that are told are the overridden
ones that were not there before or had another value. -/
theorem told_iff {env overrides : List EnvVar}
    (h : ∀ v ∈ env ++ overrides, v.value ≠ .null ∧ v.value ≠ .float .nan) (n : Value) :
    Told env overrides n ↔
      ∃ v, last? overrides n = some v ∧ ∀ w, last? env n = some w → w.same v = false := by
  have hfound : ∀ vs : List EnvVar, (∀ v ∈ vs, v ∈ env ++ overrides) →
      ∀ v ∈ last? vs n, v ≠ .null ∧ v ≠ .float .nan := by
    intro vs hvs v hv
    obtain ⟨u, hu, rfl⟩ := Option.map_eq_some_iff.mp (Option.mem_def.mp hv)
    exact h u (hvs u (List.mem_reverse.mp (List.mem_of_find?_eq_some hu)))
  have henv := hfound env fun v hv => List.mem_append_left _ hv
  have hover := hfound overrides fun v hv => List.mem_append_right _ hv
  unfold Told
  cases hv : last? overrides n with
  | some v =>
    have hv' := hover v hv
    cases hw : last? env n with
    | some w =>
      -- Away from the double that is no number, values differ if they are not the same.
      simp [Value.differs, hv'.2, (henv w hw).2]
    | none => simpa using hv'.1
  | none =>
    cases hw : last? env n with
    | some w => simpa using (henv w hw).2
    | none => simp

/-- Whatever is there after merging was there before or was merged. -/
theorem mem_of_mem_merge {env overrides : List EnvVar} {u : EnvVar}
    (h : u ∈ merge env overrides) : u ∈ env ++ overrides := by
  unfold merge at h
  induction overrides generalizing env with
  | nil => simpa using h
  | cons v vs ih =>
    rcases List.mem_append.mp (ih h) with h | h
    · rcases mem_of_mem_put h with h | rfl
      · exact List.mem_append_left _ h
      · exact List.mem_append_right _ List.mem_cons_self
    · exact List.mem_append_right _ (List.mem_cons_of_mem v h)

/-- The merged environment can be compared with the one before if all names can be looked up. -/
theorem diff?_merge {env overrides : List EnvVar}
    (h : ∀ v ∈ env ++ overrides, v.name.isScalar = true) :
    diff? env (merge env overrides) = .ok (diff env (merge env overrides)) := by
  have hfault : fault? (env ++ merge env overrides) = none := by
    rw [fault?, Option.map_eq_none_iff, List.find?_eq_none]
    intro u hu
    have hmem : u ∈ env ++ overrides := by
      rcases List.mem_append.mp hu with hu | hu
      · exact List.mem_append_left _ hu
      · exact mem_of_mem_merge hu
    simp [h u hmem]
  rw [diff?, hfault]

/-- Merging into variables that are found apart leaves them so, and it names no two of them alike if
none was named alike before and no name is the double that is no number. The names of the environment
come first, in their order, and then the new ones in the order in which they occur for the first time.
Under each name the value that was merged last is found, or else the one that was there before; under
the double that is no number there is none. Merging the same variables once more changes nothing exactly
if none of them has that name. If all names can be looked up, a comparison tells the names that are
overridden by another value or are new. -/
theorem merged {env : List EnvVar} (hd : Apart env) (overrides : List EnvVar) :
    Apart (merge env overrides) ∧
    (Distinct env → (∀ v ∈ overrides, v.name ≠ .float .nan) → Distinct (merge env overrides)) ∧
    (merge env overrides).map label = (env ++ newcomers env overrides).map label ∧
    (∀ n, value? (merge env overrides) n = (value? overrides.reverse n).or (value? env n)) ∧
    value? (merge env overrides) (.float .nan) = none ∧
    (merge (merge env overrides) overrides = merge env overrides ↔
      ∀ v ∈ overrides, v.name ≠ .float .nan) ∧
    ((∀ v ∈ env ++ overrides, v.name.isScalar = true) →
      ∃ ns, diff? env (merge env overrides) = .ok ns ∧
        (∀ n, (ns.any fun m => m.same n) = true ↔ Told env overrides n) ∧
        ((∀ v ∈ env ++ overrides, v.value ≠ .null ∧ v.value ≠ .float .nan) →
          ∀ n, (ns.any fun m => m.same n) = true ↔
            ∃ v, last? overrides n = some v ∧ ∀ w, last? env n = some w → w.same v = false)) := by
  refine ⟨apart_merge hd overrides, fun hdistinct hnames => distinct_merge hdistinct hnames,
    labels_merge hd overrides, value?_merge env overrides, ?_, merge_merge_iff hd overrides,
    fun hnames => ⟨_, diff?_merge hnames, ?_⟩⟩
  · rw [value?, first?_nan]
    rfl
  -- Both ways of saying what is told go back to the values in force.
  have htold : ∀ n, ((diff env (merge env overrides)).any fun m => m.same n) = true ↔
      Told env overrides n := by
    intro n
    rw [any_diff, differs_merge_iff hd]
  exact ⟨htold, fun hvalues n => (htold n).trans (told_iff hvalues n)⟩

/-- An environment with two variables. -/
def listed : List EnvVar :=
  [⟨.text "A", .text "1"⟩, ⟨.text "B", .text "2"⟩]

/-- Variables to be merged into it: one name is new and occurs twice, one gets another value, and one
the value that it has. -/
def given : List EnvVar :=
  [⟨.text "C", .text "3"⟩, ⟨.text "B", .text "4"⟩, ⟨.text "C", .text "5"⟩, ⟨.text "A", .text "1"⟩]

/-- A new name gets the value that is merged last, and merging once more changes nothing. -/
theorem merged_repeated :
    Distinct listed ∧ (∀ v ∈ listed ++ given, v.name.isScalar = true) ∧
      (∀ v ∈ listed ++ given, v.value ≠ .null ∧ v.value ≠ .float .nan) ∧
      Distinct (merge listed given) ∧
      (merge listed given).map label = [.text "A", .text "B", .text "C"] ∧
      value? (merge listed given) (.text "C") = some (.text "5") ∧
      merge (merge listed given) given = merge listed given ∧
      ∃ ns, diff? listed (merge listed given) = .ok ns ∧
        (ns.any fun m => m.same (.text "A")) = false ∧
        (ns.any fun m => m.same (.text "B")) = true := by
  have hd : Distinct listed := by
    unfold Distinct
    decide +kernel
  have hnames : ∀ v ∈ listed ++ given, v.name.isScalar = true := by decide +kernel
  have hvalues : ∀ v ∈ listed ++ given, v.value ≠ .null ∧ v.value ≠ .float .nan := by
    decide +kernel
  have hnumber : ∀ v ∈ given, v.name ≠ .float .nan := by decide +kernel
  obtain ⟨-, hdistinct, hlabels, hfound, -, hagain, hdiff⟩ := merged hd.apart given
  obtain ⟨ns, hns, -, htold⟩ := hdiff hnames
  refine ⟨hd, hnames, hvalues, hdistinct hd hnumber, hlabels.trans (by decide +kernel),
    (hfound _).trans (by decide +kernel), hagain.mpr hnumber, ns, hns, ?_, ?_⟩
  -- The value of `A` is the one that it had, and that of `B` is another one.
  · rw [Bool.eq_false_iff, Ne, htold hvalues]
    rintro ⟨v, hv, hdiffers⟩
    have hsame := hdiffers (.text "1") (by decide +kernel)
    obtain rfl : v = .text "1" := Option.some.inj (hv.symm.trans (by decide +kernel))
    exact absurd hsame (by decide +kernel)
  · rw [htold hvalues]
    refine ⟨.text "4", by decide +kernel, fun w hw => ?_⟩
    obtain rfl : w = .text "2" := Option.some.inj (hw.symm.trans (by decide +kernel))
    decide +kernel

/-- A variable whose name is a list is merged into itself, and the comparison cannot look it up. A
variable whose name is the double that is no number is merged and not found, so that merging it once more
puts it in twice. -/
theorem not_merged_unusable :
    (∃ env overrides : List EnvVar, Apart env ∧ env = [⟨.list [.text "A"], .text "1"⟩] ∧
      overrides = env ∧ merge env overrides = env ∧
      diff? env (merge env overrides) = .error (.notAKey (.list [.text "A"]))) ∧
    ∃ overrides : List EnvVar, overrides = [⟨.float .nan, .text "1"⟩] ∧
      merge [] overrides = overrides ∧ value? (merge [] overrides) (.float .nan) = none ∧
      merge (merge [] overrides) overrides = overrides ++ overrides := by
  refine ⟨⟨_, _, List.pairwise_singleton _ _, rfl, rfl, by decide +kernel, by decide +kernel⟩, ?_⟩
  exact ⟨_, rfl, by decide +kernel, by decide +kernel, by decide +kernel⟩

end CatalogOperator.Proofs.Proxy
