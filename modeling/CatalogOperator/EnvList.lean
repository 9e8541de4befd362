import CatalogOperator.Manifest.Basic

/-!
# `CatalogOperator.EnvList`: ordered lists of environment variables

The environment of a container is a list of variables. A name may occur more than once, although no
operation here brings that about. Searching, replacing and removing concern the first variable of a
name; comparing two lists concerns the last one, which is the one in force.

The first variable of a name is found by comparing names one after the other, and then the double that
is no number is the name of none. The last one is looked up in a table, where that double is a key like
any other.

* `EnvVar.isNamed`: whether a variable is found under a name.
* `EnvList.merge`: variables put in one after the other, each in the place of the first one of its
  name or else at the end.
* `EnvList.diff`: the names whose values in force differ. `EnvList.diff?`: the same if all names can be
  looked up.
-/

set_option autoImplicit false

namespace CatalogOperator

/-- Whether a variable is found under a name when names are compared. -/
def EnvVar.isNamed (var : EnvVar) (name : Value) : Bool :=
  !var.name.differs name

namespace EnvList

/-- The position of the first variable of a name. -/
def indexOf? (env : List EnvVar) (name : Value) : Option Nat :=
  env.findIdx? fun v => v.isNamed name

/-- The first variable of a name. -/
def first? (env : List EnvVar) (name : Value) : Option EnvVar :=
  env.find? fun v => v.isNamed name

/-- The value of the first variable of a name. -/
def value? (env : List EnvVar) (name : Value) : Option Value :=
  (first? env name).map (·.value)

/-- The list without the variable at a position. -/
def removeAt (env : List EnvVar) (index : Int) : Except Fault (List EnvVar) :=
  if 0 ≤ index ∧ index < env.length then .ok (env.eraseIdx index.toNat)
  else
    .error (.outOfRange ("EnvVar index " ++ toString index ++ " out of range for " ++
      toString env.length ++ " items"))

/-- The list without the first variable of a name. -/
def erase (env : List EnvVar) (name : Value) : List EnvVar :=
  env.eraseP fun v => v.isNamed name

/-- The list with a variable in the place of the first one of its name, or else at the end. -/
def put (env : List EnvVar) (var : EnvVar) : List EnvVar :=
  match env with
  | [] => [var]
  | v :: rest => if v.isNamed var.name then var :: rest else v :: put rest var

/-- The list with the given variables put in one after the other. -/
def merge (env overrides : List EnvVar) : List EnvVar :=
  overrides.foldl put env

/-- Whether a name can be found in a list when it is looked up. -/
def hasName (env : List EnvVar) (name : Value) : Bool :=
  env.any fun v => v.name.same name

/-- The value that is found when a name is looked up: that of the last variable. -/
def last? (env : List EnvVar) (name : Value) : Option Value :=
  (env.reverse.find? fun v => v.name.same name).map (·.value)

/-- The value in force under a name, absent if there is none. -/
def inForce (env : List EnvVar) (name : Value) : Value :=
  (last? env name).getD .null

/-- The names of a list, each once. -/
def names (env : List EnvVar) : List Value :=
  env.foldl (fun ns v => if ns.any (·.same v.name) then ns else ns ++ [v.name]) []

/-- The names whose values in force differ between two lists. -/
def diff (current desired : List EnvVar) : List Value :=
  (names (current ++ desired)).filter fun n => (inForce current n).differs (inForce desired n)

/-- The fault of a list in which a name cannot be looked up. -/
def fault? (env : List EnvVar) : Option Fault :=
  (env.find? fun v => !v.name.isScalar).map fun v => Fault.notAKey v.name

/-- The names whose values in force differ, if all names can be looked up. -/
def diff? (current desired : List EnvVar) : Except Fault (List Value) :=
  match fault? (current ++ desired) with
  | some f => .error f
  | none => .ok (diff current desired)

end EnvList

end CatalogOperator
