import CatalogOperator.Manifest.Basic
import CatalogOperator.Table

/-!
# `CatalogOperator.Store.Basic`: the store of cluster objects

The store is the only source of truth on the objects of the cluster. It holds each object under its
key and lists objects in the order of their creation. A change is announced to the subscribers of
its kind of event; a call that fails and an update that changes nothing are not.

Calls may fail for reasons outside the store. An outage makes a number of matching calls fail before
they do anything.

* `Store.get`, `Store.list`, `Store.create`, `Store.update`, `Store.delete`: the calls.
* `Notice`: the announcement of a change, with the subscribers at that moment.
* `Notice.deliver`: calls the subscribers one after the other. What one of them fails with is
  dropped.
-/

set_option autoImplicit false

namespace CatalogOperator

/-- The kinds of change in the store. -/
inductive StoreEvent where
  | added
  | updated
  | deleted
  deriving DecidableEq, Repr, Inhabited

namespace StoreEvent

/-- The name of a kind of change. -/
def text : StoreEvent → String
  | added => "object_added"
  | updated => "object_updated"
  | deleted => "object_deleted"

/-- The kind of change of the given name. -/
def ofText? (v : Value) : Except Fault StoreEvent :=
  match [added, updated, deleted].find? fun e => .text e.text == v with
  | some e => .ok e
  | none => .error (.invalidArgument (v.literal ++ " is not a valid StoreEvent"))

end StoreEvent

/-- The calls that may meet an outage. -/
inductive StoreCall where
  | get
  | list
  | update
  deriving DecidableEq, Repr, Inhabited

/-- A time during which calls fail: the matching ones, of one kind of object or of any, after some
that still get through. -/
structure Outage where
  call : StoreCall
  kind : Option Value := none
  after : Nat := 0
  times : Nat
  fault : Fault
  deriving DecidableEq, Repr, Inhabited

namespace Outage

/-- Whether a call meets the outage. -/
def covers (o : Outage) (call : StoreCall) (kind : Value) : Bool :=
  o.times != 0 && o.call == call && (o.kind.all fun k => k == kind)

/-- What the first outage to stop a call fails it with, and the outages after the call. -/
def meet (call : StoreCall) (kind : Value) : List Outage → List Outage × Option Fault
  | [] => ([], none)
  | o :: rest =>
    if o.covers call kind then
      if o.after = 0 then ({ o with times := o.times - 1 } :: rest, some o.fault)
      else
        let (rest', stopped) := meet call kind rest
        ({ o with after := o.after - 1 } :: rest', stopped)
    else
      let (rest', stopped) := meet call kind rest
      (o :: rest', stopped)

end Outage

/-- What a caller expects of an object it asks for. -/
inductive Expected where
  | anything
  | managed
  | only (typeName : String)
  deriving DecidableEq, Repr, Inhabited

namespace Expected

/-- The name of the expected class. -/
def text : Expected → String
  | anything => "BaseManifest"
  | managed => "ManagedResource"
  | only n => n

/-- Whether an object is as expected. -/
def admits (e : Expected) (m : Manifest) : Bool :=
  match e with
  | anything => true
  | managed =>
    match m with
    | .operatorSource _ => true
    | .catalogSourceConfig _ => true
    | _ => false
  | only n => m.typeName == n

end Expected

/-- The store: the objects under their keys, the subscriptions in the order in which they were made,
and the outages to come. -/
structure Store (ι : Type) where
  objects : Table ObjectKey Manifest := Table.empty
  subscriptions : List (StoreEvent × ι) := []
  outages : List Outage := []
  deriving Inhabited

/-- The announcement of a change to the subscribers of that moment. -/
structure Notice (ι : Type) where
  event : StoreEvent
  key : ObjectKey
  object : Manifest
  audience : List ι

namespace Store

variable {ι : Type}

/-- Announces a change. -/
def notice (s : Store ι) (event : StoreEvent) (key : ObjectKey) (m : Manifest) : Notice ι :=
  ⟨event, key, m, (s.subscriptions.filter fun e => e.1 == event).map (·.2)⟩

/-- The fault a call meets, if there is an outage, and the store after it. -/
def meet (s : Store ι) (call : StoreCall) (kind : Value) : Store ι × Option Fault :=
  let (outages, stopped) := Outage.meet call kind s.outages
  ({ s with outages }, stopped)

/-- The key of an object, provided it can be looked up. -/
def keyOf (m : Manifest) : Except Fault ObjectKey := do
  (← m.key?).usable?

/-- The object under a key, nothing if there is none. -/
def get (s : Store ι) (key : ObjectKey) (expected : Expected := .anything) :
    Store ι × Except Fault (Option Manifest) :=
  let (s, stopped) := s.meet .get key.kind
  (s, match stopped, key.fault? with
    | some f, _ => .error f
    | none, some f => .error f
    | none, none =>
      match s.objects.find? key with
      | none => .ok none
      | some m =>
        if expected.admits m then .ok (some m)
        else
          .error (.invalidArgument ("Object " ++ key.namespacedName.plain ++ " is not of type " ++
            expected.text ++ " (was " ++ m.typeName ++ ")")))

/-- The objects of a kind, or all of them, in the order of creation. -/
def list (s : Store ι) (kind : Value := .null) : Store ι × Except Fault (List Manifest) :=
  let (s, stopped) := s.meet .list kind
  (s, match stopped with
    | some f => .error f
    | none =>
      .ok (s.objects.values.filter fun m =>
        kind == .null || (m.kind?.getD .null).same kind))

/-- Whether the object under one of the given keys is missing. The first missing one settles it. -/
def anyMissing (s : Store ι) : List ObjectKey → Store ι × Except Fault Bool
  | [] => (s, .ok false)
  | key :: rest =>
    match s.get key with
    | (s, .error f) => (s, .error f)
    | (s, .ok none) => (s, .ok true)
    | (s, .ok (some _)) => s.anyMissing rest

/-- Puts a new object in. -/
def create (s : Store ι) (m : Manifest) : Store ι × Except Fault (Option (Notice ι)) :=
  match keyOf m with
  | .error f => (s, .error f)
  | .ok key =>
    if s.objects.contains key then
      (s, .error (.storeFailure ("Object " ++ key.text ++ " already exists")))
    else
      ({ s with objects := s.objects.insert key m }, .ok (some (s.notice .added key m)))

/-- Replaces an object. -/
def update (s : Store ι) (m : Manifest) : Store ι × Except Fault (Option (Notice ι)) :=
  let (s, stopped) := s.meet .update (m.kind?.getD .null)
  match stopped, keyOf m with
  | some f, _ => (s, .error f)
  | none, .error f => (s, .error f)
  | none, .ok key =>
    match s.objects.find? key with
    | none => (s, .error (.objectMissing ("Object " ++ key.text ++ " not found")))
    | some existing =>
      if existing.same m then (s, .ok none)
      else
        ({ s with objects := s.objects.insert key m }, .ok (some (s.notice .updated key m)))

/-- Removes an object. -/
def delete (s : Store ι) (key : ObjectKey) : Store ι × Except Fault (Option (Notice ι)) :=
  match key.fault? with
  | some f => (s, .error f)
  | none =>
    match s.objects.find? key with
    | none => (s, .error (.objectMissing ("Object " ++ key.text ++ " not found")))
    | some m =>
      ({ s with objects := s.objects.erase key }, .ok (some (s.notice .deleted key m)))

/-- Adds a subscription. -/
def subscribe (s : Store ι) (event : StoreEvent) (subscriber : ι) : Store ι :=
  { s with subscriptions := s.subscriptions ++ [(event, subscriber)] }

/-- Removes the first subscription of a subscriber to an event. -/
def unsubscribe [BEq ι] (s : Store ι) (event : StoreEvent) (subscriber : ι) : Store ι :=
  { s with subscriptions := s.subscriptions.eraseP fun e => e.1 == event && e.2 == subscriber }

end Store

/-- How a subscriber is called: it may change the object it is handed, and it may fail. -/
abbrev Callback (ι σ : Type) :=
  ι → ObjectKey → Manifest → σ → σ × Manifest × Option Fault

/-- Calls the subscribers of a notice one after the other on the same object. Their failures are
dropped. -/
def Notice.deliver {ι σ : Type} (n : Notice ι) (call : Callback ι σ) (s : σ) : σ :=
  (n.audience.foldl (fun (acc : σ × Manifest) subscriber =>
    let (s, m, _) := call subscriber n.key acc.2 acc.1
    (s, m)) (s, n.object)).1

/-- Calls one subscriber for every object of a list, each as if it had just been added. The first
failure ends it. -/
def flushTo {ι σ : Type} (subscriber : ι) (call : Callback ι σ) :
    List (ObjectKey × Manifest) → σ → σ × Option Fault
  | [], s => (s, none)
  | (key, m) :: rest, s =>
    match call subscriber key m s with
    | (s, _, some f) => (s, some f)
    | (s, _, none) => flushTo subscriber call rest s

end CatalogOperator
