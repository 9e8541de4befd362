import CatalogOperator.Fault

/-!
# `CatalogOperator.Phase`: the phases of a managed resource

A managed resource always is in exactly one phase. A reconcile may ask for a transition, which keeps
the phase and updates its message, advances it, or ends in `Failed` with a diagnosis.

* `Phase`: the phases of the lifecycle.
* `PhaseRecord`: the phase as it stands in the status of a resource. What a document gives as its
  name or message may be any value.
* `PhaseRecord.advance`: a transition at a given time. The time of the last transition moves only
  when the name changes, the time of the last update when the name or the message changes.
-/

set_option autoImplicit false

namespace CatalogOperator

/-- A phase of the lifecycle. -/
inductive Phase where
  | initial
  | configuring
  | succeeded
  | failed
  deriving DecidableEq, Repr, Inhabited

/-- The name of a phase. -/
def Phase.text : Phase → String
  | initial => "Initial"
  | configuring => "Configuring"
  | succeeded => "Succeeded"
  | failed => "Failed"

/-- Different phases have different names. -/
theorem Phase.text_injective {p q : Phase} (h : p.text = q.text) : p = q := by
  cases p <;> cases q <;> first | rfl | (revert h; decide)

/-- The next desired phase of a resource. -/
structure Transition where
  name : String
  message : String := ""
  deriving DecidableEq, Repr, Inhabited

namespace Transition

/-- The written form: the name, and the message if there is one. -/
def text (t : Transition) : String :=
  if t.message.isEmpty then t.name else t.name ++ ": " ++ t.message

/-- The transition into a phase, with a message. -/
def into (p : Phase) (message : String := "") : Transition :=
  ⟨p.text, message⟩

end Transition

/-- The phase in the status of a resource. -/
structure PhaseRecord where
  name : Value := .text Phase.initial.text
  message : Value := .text ""
  lastTransition : Option Moment := none
  lastUpdate : Option Moment := none
  deriving DecidableEq, Repr, Inhabited

namespace PhaseRecord

/-- Whether the record is in a phase. -/
def isIn (r : PhaseRecord) (p : Phase) : Bool :=
  r.name == .text p.text

/-- Whether a transition leaves the record as it is. -/
def agrees (r : PhaseRecord) (t : Transition) : Bool :=
  r.name == .text t.name && r.message == .text t.message

/-- The record after a transition at the given time. -/
def advance (r : PhaseRecord) (t : Transition) (now : Moment) : PhaseRecord :=
  if r.agrees t then r
  else
    { name := .text t.name
      message := .text t.message
      lastTransition := if r.name == .text t.name then r.lastTransition else some now
      lastUpdate := some now }

/-- A phase that agrees with a transition already is left as it is. -/
theorem advance_of_agrees {r : PhaseRecord} {t : Transition} (now : Moment)
    (h : r.agrees t = true) : r.advance t now = r := by
  simp [advance, h]

end PhaseRecord

end CatalogOperator
