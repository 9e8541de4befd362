import CatalogOperator.Manifest.Basic
import CatalogOperator.Store.Basic

/-!
# `CatalogOperator.Watch.Event`: watch events

A watch event says how an object has changed. Published events wait in a feed, in order, until they
are routed.

* `WatchEvent`: a change of an object.
* `Feed`: the published events and the number of those whose handling has not finished.
-/

set_option autoImplicit false

namespace CatalogOperator

/-- The kinds of change that are watched. -/
inductive EventType where
  | create
  | update
  | delete
  | generic
  deriving DecidableEq, Repr, Inhabited

namespace EventType

/-- The name of a kind of change. -/
def text : EventType → String
  | create => "Create"
  | update => "Update"
  | delete => "Delete"
  | generic => "Generic"

/-- The kind of change of the given name. -/
def ofText? (v : Value) : Except Fault EventType :=
  match [create, update, delete, generic].find? fun e => .text e.text == v with
  | some e => .ok e
  | none => .error (.invalidArgument (v.literal ++ " is not a valid EventType"))

/-- The kind of change that a change in the store is watched as. -/
def ofStore : StoreEvent → EventType
  | .added => .create
  | .updated => .update
  | .deleted => .delete

end EventType

/-- A change of an object. The former version may be known, and the last state of a deleted object
may be unknown. -/
structure WatchEvent where
  type : EventType
  object : Manifest
  old : Option Manifest := none
  stateUnknown : Bool := false
  deriving DecidableEq, Repr, Inhabited

namespace WatchEvent

/-- The kind of the object, empty for what has none. -/
def kind (e : WatchEvent) : Value :=
  e.object.kind?.getD (.text "")

/-- Whether the object has one of the given kinds. -/
def hasKind (e : WatchEvent) (kinds : List Value) : Bool :=
  kinds.any fun k => k.same e.kind

end WatchEvent

/-- The published events that wait to be routed, and the number of published events whose handling
has not finished. -/
structure Feed where
  events : List WatchEvent := []
  pending : Nat := 0
  deriving Repr, Inhabited

namespace Feed

/-- Publishes an event. -/
def publish (f : Feed) (e : WatchEvent) : Feed :=
  { events := f.events ++ [e], pending := f.pending + 1 }

/-- Takes the first event that waits. It stays pending. -/
def take? (f : Feed) : Option (WatchEvent × Feed) :=
  match f.events with
  | [] => none
  | e :: rest => some (e, { f with events := rest })

/-- Marks the handling of an event as finished. -/
def finish (f : Feed) : Feed :=
  { f with pending := f.pending - 1 }

end Feed

end CatalogOperator
