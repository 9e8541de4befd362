import CatalogOperator.Value.Literal

/-!
# `CatalogOperator.Fault`: what can go wrong

Every operation that can fail fails with a `Fault`, which names the cause. Its wording is in
`Fault.message` alone.

Some causes call for their own treatment: a failed store call is retried in place
(`Fault.isStoreFailure`), a passed deadline ends a reconcile (`Fault.isTimeLimit`), a dispatch error
is never retried (`Fault.isDispatchError`), and a cancellation is no failure at all
(`Fault.isCancellation`).
-/

set_option autoImplicit false

namespace CatalogOperator

/-- Why the operator reports a degraded status. -/
inductive DegradedReason where
  | ensureResources
  | unknown
  deriving DecidableEq, Repr, Inhabited

namespace DegradedReason

/-- The name of a reason, as it is reported. -/
def text : DegradedReason → String
  | ensureResources => "EnsureResourcesError"
  | unknown => "UnknownError"

/-- The reason of the given name. -/
def ofText? (s : String) : Option DegradedReason :=
  [ensureResources, unknown].find? fun r => r.text == s

end DegradedReason

/-- A cause of failure. -/
inductive Fault where
  /-- A document does not describe an object. -/
  | malformedDocument (message : String)
  /-- A reconciler was handed a resource in a phase that is not its own. -/
  | wrongPhase (resource expected actual : String)
  /-- Nothing is registered for the phase of a resource. -/
  | unhandledPhase (resource phase : String)
  /-- A store call failed. -/
  | storeFailure (message : String)
  /-- The object of a store call does not exist. -/
  | objectMissing (message : String)
  /-- A failure that passes when tried again. -/
  | transient (message : String)
  /-- A reconcile did not end before its deadline. -/
  | deadlinePassed (resource limit : String)
  /-- The work queue has been shut down. -/
  | queueClosed (message : String)
  /-- A failure of the operator of no closer kind. -/
  | operatorFailure (message : String)
  /-- An argument is of the right type and has no meaning. -/
  | invalidArgument (message : String)
  /-- A position lies outside a list. -/
  | outOfRange (message : String)
  /-- An operation was called in the wrong state. -/
  | misuse (message : String)
  /-- A call to the surrounding system failed. -/
  | systemFailure (message : String)
  /-- A call took too long. -/
  | timeLimit (message : String)
  /-- The caller has gone away. -/
  | cancelled (message : String)
  /-- A value does not have the operation asked of it. -/
  | unsupported (message : String)
  /-- A value is of the wrong type. -/
  | wrongType (message : String)
  /-- A mapping has no such key. -/
  | missingKey (key : Value)
  /-- A number is beyond its range. -/
  | overflow (message : String)
  /-- A field without a default is missing. -/
  | missingField (field : String)
  /-- The value of a field cannot be converted. -/
  | invalidField (field : String)
  /-- A text is not in the markup language. -/
  | malformedText
  /-- The document of a text is not a mapping. -/
  | notMapping
  /-- A cause of a degraded status, with the text of the failure behind it. -/
  | degraded (reason : DegradedReason) (cause : Option String)
  deriving DecidableEq, Repr, Inhabited

namespace Fault

/-- The wording of a fault. -/
def message : Fault → String
  | malformedDocument m => m
  | wrongPhase resource expected actual =>
    "Wrong reconciler invoked for " ++ resource ++ ": reconciler handles phase " ++ expected ++
      " but resource is in phase " ++ actual
  | unhandledPhase resource phase =>
    "No reconciler registered for " ++ resource ++ " in phase " ++ phase
  | storeFailure m => m
  | objectMissing m => m
  | transient m => m
  | deadlinePassed resource limit =>
    "Reconcile of " ++ resource ++ " timed out after " ++ limit ++ "s"
  | queueClosed m => m
  | operatorFailure m => m
  | invalidArgument m => m
  | outOfRange m => m
  | misuse m => m
  | systemFailure m => m
  | timeLimit m => m
  | cancelled m => m
  | unsupported m => m
  | wrongType m => m
  | missingKey key => key.literal
  | overflow m => m
  | missingField field => "Field \"" ++ field ++ "\" is missing"
  | invalidField field => "Field \"" ++ field ++ "\" has an invalid value"
  | malformedText => "The text is not well formed"
  | notMapping => "The document is not a mapping"
  | degraded _ cause => cause.getD ""

/-- Whether a store call failed, be it for want of the object. -/
def isStoreFailure : Fault → Bool
  | storeFailure _ => true
  | objectMissing _ => true
  | _ => false

/-- Whether a call took too long. -/
def isTimeLimit : Fault → Bool
  | timeLimit _ => true
  | _ => false

/-- Whether a resource reached no handler, or one that is not its own. -/
def isDispatchError : Fault → Bool
  | wrongPhase _ _ _ => true
  | unhandledPhase _ _ => true
  | _ => false

/-- Whether the caller has gone away. -/
def isCancellation : Fault → Bool
  | cancelled _ => true
  | _ => false

/-- The reason a fault gives for a degraded status. -/
def reason : Fault → DegradedReason
  | degraded r _ => r
  | _ => .unknown

/-- The fault of using a value that cannot be a key as one. -/
def notAKey (v : Value) : Fault :=
  .wrongType ("unhashable type: " ++ Text.quoted v.unusableKey.typeName)

/-- The fault of asking a value for an operation its type does not have. -/
def lacking (v : Value) (operation : String) : Fault :=
  .unsupported (Text.quoted v.typeName ++ " object has no attribute " ++ Text.quoted operation)

/-- The fault of going through the items of a value that has none. -/
def notIterable (v : Value) : Fault :=
  .wrongType (Text.quoted v.typeName ++ " object is not iterable")

end Fault

end CatalogOperator
