import CatalogOperator.Cluster

/-!
# `CatalogOperator.Scripted.Listener`: named listeners of a store

Listeners are known by name. Each notes what it is told, and then may fail, change the object it was
handed, or take another listener off the store.

* `Listening`: a store with named listeners.
* `Listening.listen`, `Listening.unlisten`: putting a listener on and taking it off.
-/

set_option autoImplicit false

namespace CatalogOperator

/-- What a listener does once it has noted what it was told. -/
inductive Reaction where
  | nothing
  | fail
  | setLabel
  | remove (other : String)
  deriving DecidableEq, Repr, Inhabited

/-- What a listener was told: its name, the key and the class of the object. -/
structure Told where
  name : String
  key : ObjectKey
  typeName : String
  deriving DecidableEq, Repr, Inhabited

/-- A store with named listeners: how each reacts, which event it can be taken off from, and what they
were told. -/
structure Listening where
  store : Store String := {}
  reactions : Table String Reaction := Table.empty
  attached : Table String StoreEvent := Table.empty
  told : List Told := []

namespace Listening

/-- Takes the listener of a name off the event it was last put on for. -/
def unlisten (name : String) : Call Listening Unit :=
  .ofFunction fun l =>
    match l.attached.find? name with
    | none => (l, .error (.missingKey (.text name)))
    | some e => ({ l with store := l.store.unsubscribe e name }, .ok ())

/-- The fault of setting a label on an object that cannot have any. -/
def noLabels (m : Manifest) : Fault :=
  .unsupported (Text.quoted m.typeName ++ " object has no attribute 'labels'")

/-- Whether an object can have labels. -/
def takesLabels : Manifest → Bool
  | .operatorSource _ => true
  | .catalogSourceConfig _ => true
  | .deployment _ => true
  | .child _ => true
  | _ => false

/-- How a listener is called. -/
def call : Callback String Listening := fun name key m l =>
  let l := { l with told := l.told ++ [({ name, key, typeName := m.typeName } : Told)] }
  match (l.reactions.find? name).getD .nothing with
  | .nothing => (l, m, none)
  | .fail => (l, m, some (.invalidArgument "listener failed"))
  | .setLabel =>
    if takesLabels m then (l, m.setLabel (.text "seen-by") (.text name), none)
    else (l, m, some (noLabels m))
  | .remove other =>
    match (unlisten other).runOn l with
    | (l, .ok ()) => (l, m, none)
    | (l, .error f) => (l, m, some f)

/-- Tells the listeners of a change. -/
def announce (n : Option (Notice String)) : Call Listening Unit :=
  modify fun l => n.elim l fun n => n.deliver call l

/-- An operation on the store. -/
def onStore {α : Type} (f : Store String → Store String × Except Fault α) : Call Listening α :=
  .ofFunction fun l => let (store, r) := f l.store; ({ l with store }, r)

/-- Tells a listener of every object in the store. -/
def flush (name : String) : Call Listening Unit :=
  .ofFunction fun l =>
    match flushTo name call l.store.objects.entries l with
    | (l, some f) => (l, .error f)
    | (l, none) => (l, .ok ())

/-- Puts a listener on for an event. How it reacts is settled the first time. A listener for added
objects may be told of those already there. -/
def listen (name : String) (event : StoreEvent) (flushed : Bool) (r : Reaction) :
    Call Listening Unit := do
  modify fun l =>
    let reactions := if l.reactions.contains name then l.reactions else l.reactions.insert name r
    { l with reactions, store := l.store.subscribe event name }
  if flushed && event == .added then flush name
  modify fun l => { l with attached := l.attached.insert name event }

end Listening

end CatalogOperator
