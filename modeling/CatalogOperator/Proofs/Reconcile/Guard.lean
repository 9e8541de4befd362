import CatalogOperator.Proofs.Activity.Invariants
import CatalogOperator.Proofs.Reconcile.Deadline
import CatalogOperator.Proofs.Reconcile.Lifecycle
import CatalogOperator.Proofs.Store.Mirror

/-!
# `CatalogOperator.Proofs.Reconcile.Guard`: one handler for a resource

A dispatcher is made of reconcilers of different phases. It hands a resource to the one for the phase
of the resource, and there is a guard which makes sure that no other one ever gets it. To see which
handlers are called, the reconcilers of a dispatcher are made to keep a record of it.

* `tableOf?_cases`: a list of reconcilers makes a table exactly if no two of them have the same phase,
  and then the table holds all of them in order.
* `Visit`: what is recorded. `watched`, `watchedAll`: reconcilers that keep the record.
* `CallsOnly`: a run calls one handler, and once. `CallsInTime`: it does if the clock can count to the
  deadline.
* `callsInTime_invoke`: an invocation calls its handler if the phases agree.
* `calls_own_handler`: a dispatch calls the handler for the phase of the resource, or none if there is
  no such handler. `not_unhandled_of_list` is about the fault there is in the latter case, and about a
  deadline that is too far off.
-/

set_option autoImplicit false

namespace CatalogOperator.Proofs.Reconcile

/-! ### Reconcilers of different phases -/

section

variable {σ R : Type} {l : List (Reconciler σ R)} {t : Table String (Reconciler σ R)}

/-- Reconcilers are added to a table exactly if their phases are new and distinct. They stand at its
end then, in order. Else the first one whose phase is taken is refused. -/
theorem tableOf?_cases (t : Table String (Reconciler σ R)) (l : List (Reconciler σ R)) :
    ((t.keys ++ l.map (·.phase)).Nodup ∧ ∃ t', Dispatcher.tableOf? t l = .ok t' ∧
      t'.entries = t.entries ++ l.map fun rec => (rec.phase, rec)) ∨
    (¬ (t.keys ++ l.map (·.phase)).Nodup ∧
      ∃ m, Dispatcher.tableOf? t l = .error (.invalidArgument m)) := by
  induction l generalizing t with
  | nil => exact .inl ⟨by simpa using t.nodup_keys, t, rfl, by simp⟩
  | cons rec rest ih =>
    unfold Dispatcher.tableOf?
    split
    · next htaken =>
      obtain ⟨other, hother⟩ := Option.isSome_iff_exists.mp htaken
      have hmem : rec.phase ∈ t.keys := Table.mem_keys_of_find? hother
      refine .inr ⟨fun hnodup => ?_, _, rfl⟩
      exact (List.nodup_append.mp hnodup).2.2 _ hmem _ List.mem_cons_self rfl
    · next hfree =>
      have hnew : rec.phase ∉ t.keys := by
        intro hmem
        obtain ⟨e, he, hphase⟩ := List.mem_map.mp hmem
        exact hfree (hphase ▸ Option.isSome_of_mem (Table.find?_of_mem he))
      have hkeys : (t.insert rec.phase rec).keys ++ rest.map (·.phase) =
          t.keys ++ (rec :: rest).map (·.phase) := by
        rw [Table.keys_insert, if_neg hnew, List.append_assoc]
        rfl
      have hentries : (t.insert rec.phase rec).entries = t.entries ++ [(rec.phase, rec)] :=
        Table.put_of_absent rec hnew
      -- The table grows by the first reconciler, so the phases that have to be distinct are the
      -- same.
      rcases ih (t.insert rec.phase rec) with ⟨hnodup, t', hok, hlist⟩ | ⟨hnot, m, hbad⟩
      · exact .inl ⟨hkeys ▸ hnodup, t', hok, by rw [hlist, hentries, List.append_assoc]; rfl⟩
      · exact .inr ⟨hkeys ▸ hnot, m, hbad⟩

/-- Reconcilers make a dispatcher exactly if their phases are distinct. -/
theorem ofList?_cases (l : List (Reconciler σ R)) (limit : Option Number) :
    ((l.map (·.phase)).Nodup ∧ ∃ d, Dispatcher.ofList? l limit = .ok d ∧
      d.table.entries = l.map fun rec => (rec.phase, rec)) ∨
    (¬ (l.map (·.phase)).Nodup ∧
      ∃ m, Dispatcher.ofList? l limit = .error (.invalidArgument m)) := by
  unfold Dispatcher.ofList?
  rcases tableOf?_cases Table.empty l with ⟨hnodup, t, hok, hlist⟩ | ⟨hnot, m, hbad⟩
  · exact .inl ⟨hnodup, ⟨t, limit⟩, by rw [hok]; rfl, hlist⟩
  · exact .inr ⟨hnot, m, by rw [hbad]; rfl⟩

/-- A dispatcher that is made of a list looks up exactly the reconcilers of the list, each under its
phase. -/
theorem find?_ofList? {limit : Option Number} {d : Dispatcher σ R} {p : String}
    {rec : Reconciler σ R} (h : Dispatcher.ofList? l limit = .ok d) :
    d.table.find? p = some rec ↔ rec ∈ l ∧ rec.phase = p := by
  rcases ofList?_cases l limit with ⟨-, d', hok, hlist⟩ | ⟨-, m, hbad⟩
  · cases h.symm.trans hok
    rw [← Table.mem_entries_iff, hlist, List.mem_map]
    constructor
    · rintro ⟨rec', hmem, he⟩
      cases he
      exact ⟨hmem, rfl⟩
    · rintro ⟨hmem, rfl⟩
      exact ⟨rec, hmem, rfl⟩
  · cases h.symm.trans hbad

/-- A dispatcher that is made of a list has the deadline that it is given. -/
theorem limit_ofList? {limit : Option Number} {d : Dispatcher σ R}
    (h : Dispatcher.ofList? l limit = .ok d) : d.limit = limit := by
  unfold Dispatcher.ofList? at h
  cases htable : Dispatcher.tableOf? Table.empty l with
  | error f =>
    rw [htable] at h
    cases h
  | ok t =>
    rw [htable] at h
    cases h
    rfl

/-! ### Reconcilers that keep a record -/

/-- What is recorded of the handler of a reconciler with a number: that it is called on a resource, and
that it has ended. -/
inductive Visit (R : Type) where
  | called (number : Nat) (given : R)
  | ended (number : Nat) (returned : R × Except Fault Verdict)

/-- The state of an activity with the record kept so far, the latest entry last. -/
abbrev Watched (σ R : Type) : Type :=
  List (Visit R) × σ

/-- Makes an entry in the record. -/
def enter (v : Visit R) : Activity (Watched σ R) Unit :=
  Activity.step fun w => ((w.1 ++ [v], w.2), ())

/-- A reconciler that records each call of its handler under a number. -/
def watched (number : Nat) (rec : Reconciler σ R) : Reconciler (Watched σ R) R where
  label := rec.label
  phase := rec.phase
  handle trace r := do
    enter (.called number r)
    let x ← Activity.zoom Prod.snd (fun s w => (w.1, s)) (rec.handle trace r)
    enter (.ended number x)
    return x

/-- Reconcilers that record the calls of their handlers under their places in the list. -/
def watchedAll (l : List (Reconciler σ R)) : List (Reconciler (Watched σ R) R) :=
  l.mapIdx watched

/-- Reconcilers that record their calls are for the same phases. -/
theorem phases_watchedAll (l : List (Reconciler σ R)) :
    (watchedAll l).map (·.phase) = l.map (·.phase) := by
  refine List.ext_getElem (by simp [watchedAll]) fun i hi hi' => ?_
  simp [watchedAll, watched]

/-- Whether a run calls the handler of a number once, on a resource, and calls no other one. It does so
before it falls asleep for the first time, and ends after the handler has; and if it ends with a fault
of dispatching, this is the one that the handler ended with. Others that leave the record alone may do
anything meanwhile. -/
def CallsOnly {α : Type} (number : Nat) (r : R) (record : List (Visit R))
    (c : Run (Watched σ R) (Except Fault α)) : Prop :=
  c.Maintains (fun w => w.1 = record ++ [.called number r]) fun w result =>
    ∃ x, w.1 = record ++ [.called number r, .ended number x] ∧
      ∀ f, result = .error f → f.isDispatchError = true → x.2 = .error f

/-- Whether a run of a dispatcher calls only the handler of a number, if the clock can count to the
deadline. If it cannot, the run calls none and ends at once. -/
def CallsInTime {α : Type} (d : Dispatcher (Watched σ R) R) (number : Nat) (r : R) (w : Watched σ R)
    (c : Run (Watched σ R) (Except Fault α)) : Prop :=
  match d.limitFault? with
  | none => CallsOnly number r w.1 c
  | some f => c = .finished w (.error f)

/-- A handler that is recorded adds its two entries. -/
theorem maintains_watched (number : Nat) (rec : Reconciler σ R) (trace : Trace) (r : R)
    (w : Watched σ R) :
    ((watched number rec).handle trace r w).Maintains
      (fun w' => w'.1 = w.1 ++ [.called number r])
      fun w' x => w'.1 = w.1 ++ [.called number r, .ended number x] := by
  let called : Watched σ R := (w.1 ++ [.called number r], w.2)
  -- The handler itself does not get at the record.
  have hobeys : (Activity.zoom Prod.snd (fun s (w : Watched σ R) => (w.1, s))
      (rec.handle trace r)).Obeys fun w w' => w'.1 = w.1 := by
    have hinner : (rec.handle trace r).Obeys fun _ _ => True := fun s => Run.obeys_anything _ s
    refine Activity.Obeys.zoom (fun whole s _ => ?_) hinner
    rfl
  have hinner := (hobeys called).maintains (I := fun w' => w'.1 = w.1 ++ [.called number r])
    (fun _ _ h hs => h.trans hs) rfl
  have hcalled : (enter (.called number r) w).Maintains (fun w' => w'.1 = w.1 ++ [.called number r])
      fun w' _ => w' = called := rfl
  refine hcalled.andThen ?_
  rintro _ _ rfl
  refine hinner.andThen fun x w' hw' => ?_
  show w'.1 ++ [.ended number x] = _
  rw [hw', List.append_assoc]
  rfl

end

section

variable {σ Spec Packages : Type} [ManagedKind Spec Packages] {r : Managed Spec Packages}

/-- What a handler comes to is a fault of dispatching only if the handler ended with it. -/
theorem ended_of_conclude {d : Dispatcher σ (Managed Spec Packages)} {out : Managed Spec Packages}
    {ended : Except Fault Verdict} {expired : Bool} {f : Fault}
    (h : d.conclude r out ended expired = .error f) (hf : f.isDispatchError = true) :
    ended = .error f := by
  cases ended with
  | ok v => cases h
  | error g =>
    unfold Dispatcher.conclude at h
    dsimp only at h
    split at h
    · cases h
      cases hf
    · split at h
      · split at h <;> cases h
      · cases h
        rfl

/-- An invocation calls the handler of its reconciler if that is for the phase of the resource. -/
theorem callsInTime_invoke {d : Dispatcher (Watched σ (Managed Spec Packages)) (Managed Spec Packages)}
    (number : Nat) {rec : Reconciler σ (Managed Spec Packages)}
    (hphase : r.phase.name = .text rec.phase) (trace : Trace)
    (w : Watched σ (Managed Spec Packages)) :
    CallsInTime d number r w (d.invoke trace (watched number rec) r w) := by
  have hown : r.phase.name = .text (watched number rec).phase := hphase
  unfold CallsInTime
  split
  · next hlimit =>
    rw [invoke_run hown hlimit]
    refine ((maintains_watched number rec _ r w).within d.seconds?).bind ?_
    rintro ⟨⟨out, ended⟩, expired⟩ w' hw'
    exact ⟨(out, ended), hw', fun f hresult hf => ended_of_conclude hresult hf⟩
  · next f hlimit => exact invoke_of_limitFault hown hlimit trace w

/-- A dispatch calls the handler in its list that is for the phase of the resource. -/
theorem callsInTime_dispatch {l : List (Reconciler σ (Managed Spec Packages))}
    {limit : Option Number}
    {d : Dispatcher (Watched σ (Managed Spec Packages)) (Managed Spec Packages)}
    (hd : Dispatcher.ofList? (watchedAll l) limit = .ok d) {i : Nat} (hi : i < l.length)
    (hphase : r.phase.name = .text l[i].phase) (trace : Trace)
    (w : Watched σ (Managed Spec Packages)) :
    CallsInTime d i r w (d.dispatch trace r w) := by
  have hmem : watched i l[i] ∈ watchedAll l := List.mem_mapIdx.mpr ⟨i, hi, rfl⟩
  have hfound : d.table.find? l[i].phase = some (watched i l[i]) :=
    (find?_ofList? hd).mpr ⟨hmem, rfl⟩
  unfold Dispatcher.dispatch
  rw [reconcilerFor_of_find? hphase hfound]
  exact callsInTime_invoke i hphase trace w

/-- A reconciler for another phase is not invoked. -/
theorem invoke_of_ne {d : Dispatcher σ (Managed Spec Packages)}
    {rec : Reconciler σ (Managed Spec Packages)} (hphase : r.phase.name ≠ .text rec.phase)
    (trace : Trace) (s : σ) :
    d.invoke trace rec r s =
      .finished s (.error (.wrongPhase r.key.text rec.phase r.phase.name.plain)) := by
  unfold Dispatcher.invoke Reconciler.checkPhase
  rw [if_neg (by simpa using hphase)]
  rfl

/-- Reconcilers make a dispatcher exactly if no two of them have the same phase. A dispatch calls the
handler for the phase of the resource, on the resource as it is, and no other one. If there is no such
handler, it calls none and ends with the fault of an unhandled phase, provided that the name of the
phase can be looked up. The invocation of any reconciler calls its handler exactly if it is for the
phase of the resource, and else ends with the fault of a wrong phase. Where a handler is called, a fault
of dispatching comes from the handler itself. Only if the clock cannot count to the deadline, no handler
is called where one would be. -/
theorem calls_own_handler (l : List (Reconciler σ (Managed Spec Packages))) (limit : Option Number) :
    ((∃ m, Dispatcher.ofList? l limit = .error (.invalidArgument m)) ↔
      ¬ (l.map (·.phase)).Nodup) ∧
    ((∃ d, Dispatcher.ofList? l limit = .ok d) ↔ (l.map (·.phase)).Nodup) ∧
    ∀ d, Dispatcher.ofList? (watchedAll l) limit = .ok d →
      ∀ (trace : Trace) (r : Managed Spec Packages) (w : Watched σ (Managed Spec Packages)),
        (∀ (i : Nat) (hi : i < l.length), r.phase.name = .text l[i].phase →
          CallsInTime d i r w (d.dispatch trace r w)) ∧
        ((∀ rec ∈ l, r.phase.name ≠ .text rec.phase) →
          d.dispatch trace r w = .finished w (.error (if r.phase.name.isScalar then
            .unhandledPhase r.key.text r.phase.name.plain else Fault.notAKey r.phase.name))) ∧
        ∀ (number : Nat) (rec : Reconciler σ (Managed Spec Packages)),
          (r.phase.name = .text rec.phase →
            CallsInTime d number r w (d.invoke trace (watched number rec) r w)) ∧
          (r.phase.name ≠ .text rec.phase →
            d.invoke trace (watched number rec) r w =
              .finished w (.error (.wrongPhase r.key.text rec.phase r.phase.name.plain))) := by
  refine ⟨?_, ?_, fun d hd trace r w =>
    ⟨fun i hi hphase => callsInTime_dispatch hd hi hphase trace w, fun hnone => ?_, fun number rec =>
      ⟨fun hphase => callsInTime_invoke number hphase trace w, fun hne => ?_⟩⟩⟩
  · rcases ofList?_cases l limit with ⟨hnodup, d, hok, -⟩ | ⟨hnot, m, hbad⟩
    · simp [hnodup, hok]
    · exact iff_of_true ⟨m, hbad⟩ hnot
  · rcases ofList?_cases l limit with ⟨hnodup, d, hok, -⟩ | ⟨hnot, m, hbad⟩
    · exact iff_of_true ⟨d, hok⟩ hnodup
    · simp [hnot, hbad]
  -- The phases of the recording reconcilers are those of the list.
  · have hphases : ∀ p ∈ d.phases, r.phase.name ≠ .text p := by
      intro p hp
      obtain ⟨e, he, rfl⟩ := List.mem_map.mp hp
      have hrec := (find?_ofList? hd).mp (Table.find?_of_mem he)
      have hphase : e.1 ∈ l.map (·.phase) :=
        phases_watchedAll l ▸ hrec.2 ▸ List.mem_map_of_mem hrec.1
      obtain ⟨rec, hmem, heq⟩ := List.mem_map.mp hphase
      exact heq ▸ hnone rec hmem
    unfold Dispatcher.dispatch
    rw [reconcilerFor_of_unhandled hphases]
    rfl
  · have hother : r.phase.name ≠ .text (watched number rec).phase := hne
    exact invoke_of_ne hother trace w

end

/-! ### Two reconcilers -/

/-- Of two reconcilers the one that takes its time is called on a resource that is being configured. -/
theorem calls_own_handler_plodding :
    ∃ d, Dispatcher.ofList? (watchedAll [Reconciler.failed, plodding]) none = .ok d ∧
      CallsOnly 1 underway [] (d.dispatch [] underway ([], ())) := by
  have hnodup : ((watchedAll [Reconciler.failed, plodding]).map (·.phase)).Nodup := by decide
  obtain ⟨d, hd⟩ := (calls_own_handler (watchedAll [Reconciler.failed, plodding]) none).2.1.mpr hnodup
  have hcalls := (calls_own_handler [Reconciler.failed, plodding] none).2.2 d hd [] underway ([], ())
  have hunlimited : d.limit = (none : Option Deadline).map (·.number) := limit_ofList? hd
  have hlimit : d.limitFault? = none := limitFault?_eq_none hunlimited
  have hown : CallsInTime d 1 underway ([], ()) (d.dispatch [] underway ([], ())) :=
    hcalls.1 1 (by decide) rfl
  rw [CallsInTime, hlimit] at hown
  exact ⟨d, hd, hown⟩

/-- A catalog source config whose phase is named by a list. -/
def astray : CatalogSourceConfig :=
  { underway with phase := { name := .list [.text "Bogus"] } }

/-- A deadline that is beyond the doubles. -/
def farOff : Number :=
  .int (Nat.pow 10 400)

/-- A phase without a reconciler need not be an unhandled one, and one with a reconciler need not be
handled: the clock cannot count to a deadline that is too far off. -/
theorem not_unhandled_of_list :
    (¬ ∀ (l : List (Reconciler Unit CatalogSourceConfig)) (limit : Option Number)
      (d : Dispatcher (Watched Unit CatalogSourceConfig) CatalogSourceConfig) (trace : Trace)
      (r : CatalogSourceConfig) (w : Watched Unit CatalogSourceConfig),
      Dispatcher.ofList? (watchedAll l) limit = .ok d →
      (∀ rec ∈ l, r.phase.name ≠ .text rec.phase) →
      d.dispatch trace r w =
        .finished w (.error (.unhandledPhase r.key.text r.phase.name.plain))) ∧
    ∃ d, Dispatcher.ofList? (watchedAll [plodding]) (some farOff) = .ok d ∧
      underway.phase.name = .text plodding.phase ∧
      d.dispatch [] underway ([], ()) =
        .finished ([], ()) (.error (.overflow "int too large to convert to float")) := by
  constructor
  · intro h
    have hrun := h [plodding] none _ [] astray ([], ()) rfl fun _ _ he => nomatch he
    cases hrun
  · obtain ⟨d, hd⟩ : ∃ d, Dispatcher.ofList? (watchedAll [plodding]) (some farOff) = .ok d :=
      ⟨_, rfl⟩
    -- A whole number that large has no double, so the invocation of the only handler fails.
    have hlimit : d.limitFault? = some (.overflow "int too large to convert to float") := by
      unfold Dispatcher.limitFault?
      rw [limit_ofList? hd]
      exact if_pos (by decide +kernel)
    have hown : CallsInTime d 0 underway ([], ()) (d.dispatch [] underway ([], ())) :=
      callsInTime_dispatch hd (by decide) rfl [] ([], ())
    rw [CallsInTime, hlimit] at hown
    exact ⟨d, hd, rfl, hown⟩

end CatalogOperator.Proofs.Reconcile
