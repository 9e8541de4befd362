import CatalogOperator.Proofs.Manifest.Same
import CatalogOperator.Proxy.ProxyStore

/-!
# `CatalogOperator.Proofs.Proxy.Projection`: the environment behind the proxy values

Setting the proxy values writes them into an environment, which may reject a write. Then the former
values are written again, and that may be rejected too. Values that are in force already are not
written at all, and a store of proxy values starts with empty ones in force that were never written. So
the environment can be out of step with the store from the beginning, until a call writes into it.

* `writeAll_outcome`: what several writes come to.
* `set_outcome`: what setting the proxy values comes to, with the environment it leaves behind.
* `reflects_iff`: when the environment holds the values that were set. `not_reflects_unwritten` is the
  case in which it does not.
* `restored_of_rejected`: once values have been set, an environment that decides by name and value
  alone is never out of step again.
-/

set_option autoImplicit false

namespace CatalogOperator.Proofs.Proxy

/-! ### Several writes -/

/-- A table with values put in under names, one after the other. -/
def putAll (t : Table String Value) (bs : List (String × Value)) : Table String Value :=
  bs.foldl (fun t b => t.insert b.1 b.2) t

section

variable {t : Table String Value} {bs : List (String × Value)}

/-- The first value is put in before the others. -/
theorem putAll_cons (t : Table String Value) (b : String × Value) (bs : List (String × Value)) :
    putAll t (b :: bs) = putAll (t.insert b.1 b.2) bs :=
  rfl

/-- A name of which no value is put in keeps its value. -/
theorem find?_putAll_of_not_mem {name : String} (h : name ∉ bs.map (·.1)) :
    (putAll t bs).find? name = t.find? name := by
  induction bs generalizing t with
  | nil => rfl
  | cons b bs ih =>
    rw [List.map_cons, List.mem_cons, not_or] at h
    rw [putAll_cons, ih h.2, Table.find?_insert, if_neg (Ne.symm h.1)]

/-- A value is found under its name if no other one is put in under it. -/
theorem find?_putAll_of_mem (hn : (bs.map (·.1)).Nodup) {b : String × Value} (hb : b ∈ bs) :
    (putAll t bs).find? b.1 = some b.2 := by
  induction bs generalizing t with
  | nil => cases hb
  | cons b' bs ih =>
    obtain ⟨hnew, hn⟩ := List.nodup_cons.mp hn
    rw [putAll_cons]
    rcases List.mem_cons.mp hb with rfl | hb
    · rw [find?_putAll_of_not_mem hnew, Table.find?_insert_self]
    · exact ih hn hb

/-- Names that are there keep their places. -/
theorem keys_putAll (h : ∀ b ∈ bs, b.1 ∈ t.keys) : (putAll t bs).keys = t.keys := by
  induction bs generalizing t with
  | nil => rfl
  | cons b bs ih =>
    have hkeys : (t.insert b.1 b.2).keys = t.keys := by
      rw [Table.keys_insert, if_pos (h b List.mem_cons_self)]
    rw [putAll_cons, ih fun b' hb' => ?_, hkeys]
    rw [hkeys]
    exact h b' (List.mem_cons_of_mem _ hb')

/-- Putting the former values in again undoes what was put in under some of their names. -/
theorem putAll_undo {new : List (String × Value)} (hn : (bs.map (·.1)).Nodup)
    (hheld : ∀ b ∈ bs, t.find? b.1 = some b.2) (hnew : ∀ b ∈ new, b.1 ∈ bs.map (·.1)) :
    putAll (putAll t new) bs = t := by
  have hmem : ∀ name, name ∈ bs.map (·.1) → name ∈ t.keys := by
    intro name hname
    obtain ⟨b, hb, rfl⟩ := List.mem_map.mp hname
    exact Table.mem_keys_of_find? (hheld b hb)
  -- All names are there before, so they keep their places, and only what is found counts.
  have hkeys : (putAll t new).keys = t.keys := keys_putAll fun b hb => hmem _ (hnew b hb)
  refine Table.ext_of_keys ?_ fun name => ?_
  · rw [keys_putAll fun b hb => hkeys ▸ hmem _ (List.mem_map_of_mem hb), hkeys]
  · by_cases hname : name ∈ bs.map (·.1)
    · obtain ⟨b, hb, rfl⟩ := List.mem_map.mp hname
      rw [find?_putAll_of_mem hn hb, hheld b hb]
    · have hname' : name ∉ new.map (·.1) := by
        intro hmem'
        obtain ⟨b, hb, rfl⟩ := List.mem_map.mp hmem'
        exact hname (hnew b hb)
      rw [find?_putAll_of_not_mem hname, find?_putAll_of_not_mem hname']

end

/-- Whether an environment takes a value under a name at some attempt. -/
def Takes (e : Environment) (b : String × Value) : Prop :=
  ∃ number, e.reject number b.1 b.2 = none

/-- Whether an environment rejects a value under a name with a fault at some attempt. -/
def RejectsWith (e : Environment) (b : String × Value) (f : Fault) : Prop :=
  ∃ number, e.reject number b.1 b.2 = some f

/-- An environment with other variables, after more attempts. -/
def after (e : Environment) (t : Table String Value) (attempts : List (String × Value)) :
    Environment :=
  { e with bindings := t, attempts }

/-- What several writes come to: all values are put in, or those before the first one that is
rejected. -/
inductive Writes (e : Environment) (bs : List (String × Value)) : Environment × Option Fault → Prop
  | taken (attempts : List (String × Value)) : (∀ b ∈ bs, Takes e b) →
    Writes e bs (after e (putAll e.bindings bs) attempts, none)
  | rejected (done rest attempts : List (String × Value)) (b : String × Value) (f : Fault) :
    bs = done ++ b :: rest → (∀ b' ∈ done, Takes e b') → RejectsWith e b f →
    Writes e bs (after e (putAll e.bindings done) attempts, some f)

/-- Several writes put all values in, or those before the first one that is rejected. -/
theorem writeAll_outcome (e : Environment) (bs : List (String × Value)) :
    Writes e bs (e.writeAll bs) := by
  induction bs generalizing e with
  | nil => exact .taken e.attempts (by simp)
  | cons b bs ih =>
    obtain ⟨name, value⟩ := b
    unfold Environment.writeAll Environment.write
    dsimp only
    cases hr : e.reject (e.attempts.length + 1) name value with
    | some f => exact .rejected [] bs _ (name, value) f rfl (by simp) ⟨_, hr⟩
    | none =>
      have htakes : Takes e (name, value) := ⟨_, hr⟩
      -- The rest is written to an environment that rejects the same.
      have hrest := ih (after e (e.bindings.insert name value) (e.attempts ++ [(name, value)]))
      dsimp only
      generalize hout : Environment.writeAll _ bs = out
      rw [show Environment.writeAll (after e _ _) bs = out from hout] at hrest
      cases hrest with
      | taken attempts hall =>
        exact .taken attempts fun b hb => (List.mem_cons.mp hb).elim (· ▸ htakes) (hall b)
      | rejected done rest attempts b f hbs hdone hb =>
        refine .rejected ((name, value) :: done) rest attempts b f (by rw [hbs]; rfl) ?_ hb
        exact fun b' hb' => (List.mem_cons.mp hb').elim (· ▸ htakes) (hdone b')

/-! ### Setting the proxy values -/

/-- How a call that sets the proxy values ends. -/
inductive Ending where
  /-- The values are in force already, and nothing is written. -/
  | kept
  /-- The values are written. -/
  | changed
  /-- A write is rejected, and the former values are written again. -/
  | restored
  /-- A write is rejected, and so is one of those that write the former values again. -/
  | torn
  deriving DecidableEq

/-- The ending of a call that sets the proxy values. -/
def ending (p : ProxyStore) (c : ProxyConfig) : Ending :=
  if p.config.same c then .kept
  else
    match p.project c with
    | (_, none) => .changed
    | (p', some _) =>
      match p'.project p.config with
      | (_, none) => .restored
      | (_, some _) => .torn

/-- What setting the proxy values comes to, given the environment: the ending, the store with the
environment left behind, and the result. -/
inductive Sets (p : ProxyStore) (e : Environment) (c : ProxyConfig) :
    Ending → ProxyStore × Except Fault Bool → Prop
  | kept : p.config.same c = true → Sets p e c .kept (p, .ok false)
  | changed (attempts : List (String × Value)) : p.config.same c = false →
    (∀ b ∈ c.bindings, Takes e b) →
    Sets p e c .changed
      ({ p with
        config := c
        environment := some (after e (putAll e.bindings c.bindings) attempts) }, .ok true)
  | restored (done rest attempts : List (String × Value)) (b : String × Value) (f : Fault) :
    p.config.same c = false → c.bindings = done ++ b :: rest → (∀ b' ∈ done, Takes e b') →
    RejectsWith e b f →
    Sets p e c .restored
      ({ p with
        environment := some
          (after e (putAll (putAll e.bindings done) p.config.bindings) attempts) }, .error f)
  | torn (done rest done' rest' attempts : List (String × Value)) (b b' : String × Value)
    (f : Fault) : p.config.same c = false → c.bindings = done ++ b :: rest →
    p.config.bindings = done' ++ b' :: rest' → RejectsWith e b' f →
    Sets p e c .torn
      ({ p with
        environment := some (after e (putAll (putAll e.bindings done) done') attempts) }, .error f)

/-- Values that are in force already are not written. -/
theorem set_of_same {p : ProxyStore} {c : ProxyConfig} (h : p.config.same c = true) :
    p.set c = (p, .ok false) :=
  if_pos h

/-- Projecting proxy values writes them to the environment, each under its name. -/
theorem project_eq {p : ProxyStore} {e : Environment} (he : p.environment = some e)
    (c : ProxyConfig) :
    p.project c =
      ({ p with environment := some (e.writeAll c.bindings).1 }, (e.writeAll c.bindings).2) := by
  unfold ProxyStore.project
  rw [he]

/-- Setting proxy values comes to what their ending says. -/
theorem set_outcome {p : ProxyStore} {e : Environment} (he : p.environment = some e)
    (c : ProxyConfig) : Sets p e c (ending p c) (p.set c) := by
  unfold ending ProxyStore.set
  cases hsame : p.config.same c with
  | true => exact .kept hsame
  | false =>
    have hwrites := writeAll_outcome e c.bindings
    rw [project_eq he]
    generalize e.writeAll c.bindings = out at hwrites
    cases hwrites with
    | taken attempts hall => exact .changed attempts hsame hall
    | rejected done rest attempts b f hsplit hdone hb =>
      -- What is written again goes to the environment that the first writes left behind.
      have hagain := writeAll_outcome (after e (putAll e.bindings done) attempts) p.config.bindings
      simp only [Bool.false_eq_true, if_false]
      rw [project_eq (e := after e (putAll e.bindings done) attempts) rfl]
      generalize (after e (putAll e.bindings done) attempts).writeAll p.config.bindings = out'
        at hagain
      cases hagain with
      | taken attempts' hall => exact .restored done rest attempts' b f hsame hsplit hdone hb
      | rejected done' rest' attempts' b' f' hsplit' hdone' hb' =>
        exact .torn done rest done' rest' attempts' b b' f' hsame hsplit hsplit' hb'

/-! ### The values that the environment holds -/

/-- The names of the proxy values, which are distinct. -/
def proxyNames : List String :=
  ["NO_PROXY", "HTTP_PROXY", "HTTPS_PROXY"]

/-- The values are written under the proxy names. -/
theorem map_fst_bindings (c : ProxyConfig) : c.bindings.map (·.1) = proxyNames :=
  rfl

/-- No name is written to twice. -/
theorem nodup_bindings (c : ProxyConfig) : (c.bindings.map (·.1)).Nodup := by
  rw [map_fst_bindings]
  decide

/-- Whether a table holds proxy values under their names. Values that count as equal may stand for each
other. -/
def Holds (t : Table String Value) (c : ProxyConfig) : Prop :=
  ∀ b ∈ c.bindings, ∃ v, t.find? b.1 = some v ∧ v.same b.2 = true

/-- Whether the environment behind the proxy values holds the given ones. -/
def Reflects (p : ProxyStore) (c : ProxyConfig) : Prop :=
  ∃ e, p.environment = some e ∧ Holds e.bindings c

section

variable {t t' : Table String Value} {c c' : ProxyConfig} {p : ProxyStore} {e : Environment}

/-- Proxy values are reflected exactly if the variables of the environment hold them. -/
theorem reflects_iff_holds (he : p.environment = some e) : Reflects p c ↔ Holds e.bindings c := by
  simp [Reflects, he]

/-- Values that have been put in are there. -/
theorem holds_putAll (t : Table String Value) (c : ProxyConfig) :
    Holds (putAll t c.bindings) c := fun b hb =>
  ⟨b.2, find?_putAll_of_mem (nodup_bindings c) hb, Value.same_refl _⟩

/-- Only what is found under the names of the proxy values counts. -/
theorem holds_congr_find? (h : ∀ n ∈ proxyNames, t'.find? n = t.find? n) :
    Holds t' c ↔ Holds t c := by
  refine forall₂_congr fun b hb => ?_
  rw [h b.1 (map_fst_bindings c ▸ List.mem_map_of_mem hb)]

/-- Proxy values count as equal exactly if they do one by one. -/
theorem same_config_iff :
    c.same c' = true ↔ c.http.same c'.http ∧ c.https.same c'.https ∧ c.exempt.same c'.exempt := by
  simp [ProxyConfig.same, ProxyConfig.content]

/-- Values that count as equal are held together. -/
theorem holds_congr_same (h : c.same c' = true) : Holds t c ↔ Holds t c' := by
  obtain ⟨hhttp, hhttps, hexempt⟩ := same_config_iff.mp h
  have hone : ∀ (name : String) {v v' : Value}, v.same v' = true →
      ((∃ w, t.find? name = some w ∧ w.same v = true) ↔
        ∃ w, t.find? name = some w ∧ w.same v' = true) := by
    intro name v v' hv
    refine exists_congr fun w => and_congr_right fun _ => ?_
    rw [Value.same_comm w, Value.same_left_congr hv, Value.same_comm]
  simp only [Holds, ProxyConfig.bindings, List.forall_mem_cons, List.not_mem_nil, false_imp_iff,
    implies_true, and_true, hone "NO_PROXY" hexempt, hone "HTTP_PROXY" hhttp,
    hone "HTTPS_PROXY" hhttps]

/-! ### When the environment is in step -/

/-- How a call ends decides whether the environment is in step with the store afterwards, unless it
leaves the environment torn. -/
theorem Sets.reflects_config_iff {x : Ending} {r : ProxyStore × Except Fault Bool}
    (h : Sets p e c x r) (htorn : x ≠ .torn) : Reflects r.1 r.1.config ↔ x ≠ .kept ∨ Reflects p p.config := by
  cases h with
  | kept => simp
  | changed => exact iff_of_true ⟨_, rfl, holds_putAll _ _⟩ (.inl (by simp))
  | restored => exact iff_of_true ⟨_, rfl, holds_putAll _ _⟩ (.inl (by simp))
  | torn => exact absurd rfl htorn

/-- What has been done to a store of proxy values: they were set, each time with the given ending, and
others wrote to the environment, or changed what it rejects, but left the names of the proxy values
alone. -/
inductive Used (p₀ : ProxyStore) : List Ending → ProxyStore → Prop
  | fresh : Used p₀ [] p₀
  | set {es : List Ending} {p : ProxyStore} (c : ProxyConfig) : Used p₀ es p →
    Used p₀ (es ++ [ending p c]) (p.set c).1
  | others {es : List Ending} {p : ProxyStore} (e e' : Environment) : Used p₀ es p →
    p.environment = some e → (∀ n ∈ proxyNames, e'.bindings.find? n = e.bindings.find? n) →
    Used p₀ es { p with environment := some e' }

/-- The store keeps an environment, which rejects the same. -/
theorem Sets.exists_environment {x : Ending} {r : ProxyStore × Except Fault Bool}
    (h : Sets p e c x r) (he : p.environment = some e) :
    ∃ e', r.1.environment = some e' ∧ e'.reject = e.reject := by
  cases h with
  | kept => exact ⟨e, he, rfl⟩
  | changed => exact ⟨_, rfl, rfl⟩
  | restored => exact ⟨_, rfl, rfl⟩
  | torn => exact ⟨_, rfl, rfl⟩

variable {p₀ : ProxyStore} {e₀ : Environment} {es : List Ending}

/-- A store with an environment keeps one. -/
theorem Used.exists_environment (h : Used p₀ es p) (he : p₀.environment = some e₀) :
    ∃ e, p.environment = some e := by
  induction h with
  | fresh => exact ⟨e₀, he⟩
  | set c _ ih =>
    obtain ⟨e, he⟩ := ih
    obtain ⟨e', he', -⟩ := (set_outcome he c).exists_environment he
    exact ⟨e', he'⟩
  | others e e' => exact ⟨e', rfl⟩

/-- As long as no call has left it torn, the environment is in step exactly if some call has written to
it, or it was in step at the beginning. -/
theorem Used.reflects_config_iff (h : Used p₀ es p) (he : p₀.environment = some e₀)
    (htorn : .torn ∉ es) :
    Reflects p p.config ↔ (∃ x ∈ es, x ≠ .kept) ∨ Reflects p₀ p₀.config := by
  induction h with
  | fresh => simp
  | @set es p c hused ih =>
    rw [List.mem_append, List.mem_singleton, not_or] at htorn
    obtain ⟨e, hp⟩ := hused.exists_environment he
    rw [(set_outcome hp c).reflects_config_iff (Ne.symm htorn.2), ih htorn.1, ← or_assoc,
      or_comm (a := _ ≠ _)]
    simp [or_and_right, exists_or]
  | @others es p e e' _ hp hkept ih =>
    rw [← ih htorn, reflects_iff_holds hp, reflects_iff_holds (p := { p with environment := _ }) rfl]
    exact holds_congr_find? hkept

/-- A call that ends well leaves the values that were set in force. The environment then holds them
exactly if the call has changed the values, or the environment was in step with the store before. As
long as no call has left it torn, it was in step exactly if some call had written to it, by changing or
restoring the values, or it held empty values at the beginning. -/
theorem reflects_iff (e₀ : Environment) (available : Bool)
    (h : Used { environment := some e₀, available } es p) (c : ProxyConfig) {changed : Bool}
    (hset : (p.set c).2 = .ok changed) :
    (p.set c).1.config.same c = true ∧
      (Reflects (p.set c).1 c ↔ changed = true ∨ Reflects p p.config) ∧
      (.torn ∉ es →
        (Reflects p p.config ↔ (∃ x ∈ es, x ≠ .kept) ∨ Holds e₀.bindings {})) := by
  obtain ⟨e, he⟩ := h.exists_environment rfl
  have hcall : (p.set c).1.config.same c = true ∧
      (Reflects (p.set c).1 c ↔ changed = true ∨ Reflects p p.config) := by
    have hsets := set_outcome he c
    generalize ending p c = x at hsets
    generalize p.set c = r at hsets hset
    -- A call ends well if it keeps the values or changes them.
    cases hsets with
    | kept hsame =>
      cases hset
      refine ⟨hsame, ?_⟩
      rw [reflects_iff_holds he, reflects_iff_holds he, holds_congr_same hsame]
      simp
    | changed =>
      cases hset
      exact ⟨Value.same_refl _, iff_of_true ⟨_, rfl, holds_putAll _ _⟩ (.inl rfl)⟩
    | restored => cases hset
    | torn => cases hset
  refine ⟨hcall.1, hcall.2, fun htorn => ?_⟩
  rw [h.reflects_config_iff rfl htorn,
    reflects_iff_holds (p := { environment := some e₀, available }) rfl]

end

/-- An environment with a proxy value from outside, which rejects one address. -/
def inherited : Environment where
  bindings := Table.ofList [("HTTP_PROXY", .text "http://old:3128")]
  reject _ _ v := if v = .text "bad" then some (.systemFailure "rejected") else none

/-- After a call that was rejected, empty values are in the environment, although they were not there at
the beginning. -/
theorem reflects_iff_restored :
    ∃ p, Used { environment := some inherited } [.restored] p ∧ (p.set {}).2 = .ok false ∧
      ¬ Holds inherited.bindings {} ∧ Reflects (p.set {}).1 {} := by
  have hfresh : Used { environment := some inherited } [] { environment := some inherited } := .fresh
  have hused := hfresh.set { http := .text "bad" }
  have hending : [] ++ [ending { environment := some inherited } { http := .text "bad" }] =
      [Ending.restored] := by decide +kernel
  rw [hending] at hused
  have hset := set_of_same (p := (ProxyStore.set { environment := some inherited }
    { http := .text "bad" }).1) (c := {}) (by decide +kernel)
  refine ⟨_, hused, by rw [hset], fun h => ?_, ?_⟩
  · obtain ⟨v, hv, -⟩ := h ("NO_PROXY", .text "") (by decide +kernel)
    have hnone : inherited.bindings.find? "NO_PROXY" = none := by decide +kernel
    rw [hnone] at hv
    cases hv
  · have hok : ((ProxyStore.set { environment := some inherited } { http := .text "bad" }).1.set
        {}).2 = .ok false := by rw [hset]
    have hiff := reflects_iff inherited true hused {} hok
    have hwritten : ∃ x ∈ [Ending.restored], x ≠ .kept := by decide
    exact hiff.2.1.mpr (.inr ((hiff.2.2 (by decide)).mpr (.inl hwritten)))

/-- Empty values are in force from the beginning, so setting them writes nothing, and the environment
goes on to hold another value. -/
theorem not_reflects_unwritten :
    ∃ p, Used { environment := some inherited } [] p ∧ (p.set {}).2 = .ok false ∧
      (p.set {}).1 = p ∧ inherited.bindings.find? "HTTP_PROXY" = some (.text "http://old:3128") ∧
      ¬ Reflects (p.set {}).1 {} := by
  have hset := set_of_same (p := { environment := some inherited }) (c := {}) (by decide +kernel)
  refine ⟨_, .fresh, by rw [hset], by rw [hset], by decide +kernel, ?_⟩
  rw [hset]
  rintro ⟨e, he, hholds⟩
  cases he
  obtain ⟨v, hv, hsame⟩ := hholds ("HTTP_PROXY", .text "") (by decide +kernel)
  have hold : inherited.bindings.find? "HTTP_PROXY" = some (.text "http://old:3128") := by
    decide +kernel
  cases hold.symm.trans hv
  exact absurd hsame (by decide +kernel)

/-! ### Environments that decide by name and value -/

/-- The store of proxy values after the given ones have been set one after the other. -/
def setAll (p : ProxyStore) (cs : List ProxyConfig) : ProxyStore :=
  cs.foldl (fun p c => (p.set c).1) p

/-- What every call keeps holds after all of them. -/
theorem setAll_keeps {P : ProxyStore → Prop} (hstep : ∀ p c, P p → P (p.set c).1) {p : ProxyStore}
    (h : P p) (cs : List ProxyConfig) : P (setAll p cs) := by
  induction cs generalizing p with
  | nil => exact h
  | cons c cs ih => exact ih (hstep p c h)

/-- The variables of the environment behind the proxy values. -/
def bindingsOf (p : ProxyStore) : Option (Table String Value) :=
  p.environment.map (·.bindings)

/-- Whether the environment holds exactly the values in force. -/
def InStep (p : ProxyStore) : Prop :=
  ∃ t, bindingsOf p = some t ∧ ∀ b ∈ p.config.bindings, t.find? b.1 = some b.2

/-- An environment behind proxy values that decides by name and value alone what it rejects. -/
structure Steady (rejects : String → Value → Option Fault) (p : ProxyStore) (e : Environment) :
    Prop where
  environment : p.environment = some e
  reject : ∀ number, e.reject number = rejects

/-- Such an environment that holds the values in force and would take them again. -/
structure Committed (rejects : String → Value → Option Fault) (p : ProxyStore) (e : Environment) :
    Prop extends Steady rejects p e where
  taken : ∀ b ∈ p.config.bindings, rejects b.1 b.2 = none
  held : ∀ b ∈ p.config.bindings, e.bindings.find? b.1 = some b.2

section

variable {rejects : String → Value → Option Fault} {p : ProxyStore} {e : Environment}
  {c : ProxyConfig} {b : String × Value} {f : Fault}

/-- A steady environment takes a value at every attempt or at none. -/
theorem Steady.takes_iff (h : Steady rejects p e) : Takes e b ↔ rejects b.1 b.2 = none := by
  simp [Takes, h.reject]

/-- A steady environment rejects a value with the same fault each time. -/
theorem Steady.rejectsWith_iff (h : Steady rejects p e) :
    RejectsWith e b f ↔ rejects b.1 b.2 = some f := by
  simp [RejectsWith, h.reject]

/-- Setting proxy values leaves a steady environment steady. -/
theorem Steady.set (h : Steady rejects p e) (c : ProxyConfig) :
    ∃ e', Steady rejects (p.set c).1 e' := by
  obtain ⟨e', he', hreject⟩ := (set_outcome h.environment c).exists_environment h.environment
  exact ⟨e', he', fun number => hreject ▸ h.reject number⟩

/-- However often the proxy values are set, the environment stays steady. -/
theorem Steady.setAll (h : Steady rejects p e) (cs : List ProxyConfig) :
    ∃ e', Steady rejects (setAll p cs) e' :=
  setAll_keeps (P := fun p => ∃ e, Steady rejects p e) (fun _ c ⟨_, h⟩ => h.set c) ⟨e, h⟩ cs

/-- Values that have been taken are held. -/
theorem Steady.committed (h : Steady rejects p e) (hset : (p.set c).2 = .ok true) :
    ∃ e', Committed rejects (p.set c).1 e' := by
  have hsets := set_outcome h.environment c
  generalize ending p c = x at hsets
  generalize p.set c = r at hsets hset
  cases hsets with
  | kept => cases hset
  | changed attempts _ htakes =>
    refine ⟨_, ⟨rfl, h.reject⟩, fun b hb => h.takes_iff.mp (htakes b hb), fun b hb => ?_⟩
    exact find?_putAll_of_mem (nodup_bindings c) hb
  | restored => cases hset
  | torn => cases hset

namespace Committed

/-- A committed environment holds the values in force. -/
theorem inStep (h : Committed rejects p e) : InStep p :=
  ⟨e.bindings, by rw [bindingsOf, h.environment]; rfl, h.held⟩

/-- What setting proxy values comes to when the former ones would be taken again: they are in force
already, or they are taken, or the first one that is rejected shows and everything is as before. -/
theorem set_cases (h : Committed rejects p e) (c : ProxyConfig) :
    (p.config.same c = true ∧ p.set c = (p, .ok false)) ∨
    (p.config.same c = false ∧ c.bindings.findSome? (fun b => rejects b.1 b.2) = none ∧
      (p.set c).2 = .ok true) ∨
    ∃ f attempts, p.config.same c = false ∧
      c.bindings.findSome? (fun b => rejects b.1 b.2) = some f ∧
      p.set c = ({ p with environment := some (after e e.bindings attempts) }, .error f) := by
  have hsets := set_outcome h.environment c
  generalize ending p c = x at hsets
  generalize p.set c = r at hsets
  cases hsets with
  | kept hsame => exact .inl ⟨hsame, rfl⟩
  | changed attempts hsame htakes =>
    refine .inr (.inl ⟨hsame, ?_, rfl⟩)
    exact List.findSome?_eq_none_iff.mpr fun b hb => h.takes_iff.mp (htakes b hb)
  | restored done rest attempts b f hsame hsplit hdone hb =>
    refine .inr (.inr ⟨f, attempts, hsame, ?_, ?_⟩)
    · refine List.findSome?_eq_some_iff.mpr ⟨done, b, rest, hsplit, h.rejectsWith_iff.mp hb, ?_⟩
      exact fun b' hb' => h.takes_iff.mp (hdone b' hb')
    · -- The names that were written to are among those that are written again.
      rw [putAll_undo (nodup_bindings p.config) h.held fun b' hb' => ?_]
      rw [map_fst_bindings, ← map_fst_bindings c, hsplit]
      exact List.mem_map_of_mem (List.mem_append_left _ hb')
  | torn done rest done' rest' attempts b b' f _ _ hsplit' hb' =>
    -- The former values would all be taken.
    have hnone := h.taken b' (by rw [hsplit']; simp)
    rw [h.rejectsWith_iff.mp hb'] at hnone
    cases hnone

/-- Setting proxy values leaves the environment committed, to the new values or to the former ones. -/
theorem set (h : Committed rejects p e) (c : ProxyConfig) :
    ∃ e', Committed rejects (p.set c).1 e' := by
  rcases h.set_cases c with ⟨-, hset⟩ | ⟨-, -, hset⟩ | ⟨f, attempts, -, -, hset⟩
  · rw [hset]
    exact ⟨e, h⟩
  · exact h.committed hset
  · rw [hset]
    exact ⟨_, ⟨rfl, h.reject⟩, h.taken, h.held⟩

/-- However often the proxy values are set, the environment stays committed. -/
theorem setAll (h : Committed rejects p e) (cs : List ProxyConfig) :
    ∃ e', Committed rejects (setAll p cs) e' :=
  setAll_keeps (P := fun p => ∃ e, Committed rejects p e) (fun _ c ⟨_, h⟩ => h.set c) ⟨e, h⟩ cs

end Committed

/-- Take an environment that decides by name and value alone, and a store of proxy values some call has
changed. A call then fails exactly if it asks for other values and one of them is rejected, and it fails
with the fault of the first of these. The values in force and all variables of the environment are then
as before. So after any further calls, failed ones included, the environment holds exactly the values in
force. -/
theorem restored_of_rejected {q : ProxyStore} {before later : List ProxyConfig}
    (h : Steady rejects p e) (hchanged : ((setAll p before).set c).2 = .ok true)
    (hq : q = setAll p (before ++ c :: later)) :
    (∀ d f, (q.set d).2 = .error f ↔
      q.config.same d = false ∧ d.bindings.findSome? (fun b => rejects b.1 b.2) = some f) ∧
      (∀ d f, (q.set d).2 = .error f →
        (q.set d).1.config = q.config ∧ bindingsOf (q.set d).1 = bindingsOf q) ∧
      ∀ ds, InStep (setAll q ds) := by
  -- The call that changed the values wrote all of them, and every later call keeps them written.
  obtain ⟨_, hbefore⟩ := h.setAll before
  obtain ⟨_, hset⟩ := hbefore.committed hchanged
  have hsplit : q = setAll ((setAll p before).set c).1 later := by
    rw [hq, Proxy.setAll, List.foldl_append]
    rfl
  obtain ⟨e', hcommitted⟩ := hsplit ▸ hset.setAll later
  refine ⟨fun d f => ?_, fun d f hf => ?_, fun ds => ?_⟩
  · rcases hcommitted.set_cases d with ⟨hsame, hset⟩ | ⟨-, hnone, hset⟩ | ⟨g, _, hsame, hsome, hset⟩
    · simp [hset, hsame]
    · simp [hset, hnone]
    · simp [hset, hsame, hsome, eq_comm]
  · rcases hcommitted.set_cases d with ⟨-, hset⟩ | ⟨-, -, hset⟩ | ⟨g, _, -, -, hset⟩
    · simp [hset] at hf
    · simp [hset] at hf
    · rw [hset]
      exact ⟨rfl, by rw [bindingsOf, bindingsOf, hcommitted.environment]; rfl⟩
  · obtain ⟨_, hds⟩ := hcommitted.setAll ds
    exact hds.inStep

end

/-- The last of three values is rejected after two others were written, and all of them are back. -/
theorem restored_of_rejected_address :
    ∃ q, q = setAll { environment := some inherited } [{ http := .text "a" }] ∧
      (ProxyStore.set { environment := some inherited } { http := .text "a" }).2 = .ok true ∧
      (q.set { exempt := .text "n", http := .text "b", https := .text "bad" }).2 =
        .error (.systemFailure "rejected") ∧
      bindingsOf (q.set { exempt := .text "n", http := .text "b", https := .text "bad" }).1 =
        bindingsOf q ∧
      InStep (setAll q [{ https := .text "bad" }, { http := .text "b" }]) := by
  have hsteady : Steady (inherited.reject 0) { environment := some inherited } inherited :=
    ⟨rfl, fun _ => rfl⟩
  have hchanged : ((setAll { environment := some inherited } []).set { http := .text "a" }).2 =
      .ok true := rfl
  obtain ⟨q, hq⟩ : ∃ q, q = setAll { environment := some inherited }
      ([] ++ { http := .text "a" } :: []) := ⟨_, rfl⟩
  have hrestored := restored_of_rejected hsteady hchanged hq
  have hfails := (hrestored.1 { exempt := .text "n", http := .text "b", https := .text "bad" }
    (.systemFailure "rejected")).mpr (by rw [hq]; exact ⟨by decide +kernel, by decide +kernel⟩)
  exact ⟨q, hq, hchanged, hfails, (hrestored.2.1 _ _ hfails).2, hrestored.2.2 _⟩

end CatalogOperator.Proofs.Proxy
