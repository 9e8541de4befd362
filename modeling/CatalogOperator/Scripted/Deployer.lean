import CatalogOperator.Operator.Schedule

/-!
# `CatalogOperator.Scripted.Deployer`: a deployer that follows a script

The operator leaves the registry resources to a deployer. This one does what a script says for the
name of each resource, one action per call, and remembers how it was called. An action may set a
label on the resource, take some time, fail, and create the children or bring them up to date.

* `DeployAction`: one action. `Script.next` takes it off the script.
* `Deployer.scripted`: the deployer.
* `noteDeletion`: a deletion hook that remembers the keys it is called with.
* `Operator.reconcileApart`: the work of a controller that is there for one key only.
-/

set_option autoImplicit false

namespace CatalogOperator

/-- What a deployer does in one call, in the order of the fields. -/
structure DeployAction where
  label : Option (Value × Value) := none
  seconds : Option Rat := none
  fails : Option Fault := none
  children : Bool := false
  deriving DecidableEq, Repr, Inhabited

/-- A call of a deployer, as it found the resource. -/
inductive DeployCall where
  | ensured (trace : String) (r : CatalogSourceConfig)
  | populated (r : CatalogSourceConfig)
  deriving DecidableEq, Repr, Inhabited

/-- The actions for each name, the action for all others, the calls so far, and the deleted keys that
were noted. -/
structure Script where
  actions : Table Value (List DeployAction) := Table.empty
  fallback : DeployAction := {}
  calls : List DeployCall := []
  noted : List ObjectKey := []
  deriving Inhabited

namespace Script

/-- The next action for a name. -/
def next (s : Script) (name : Value) : Script × DeployAction :=
  match s.actions.find? name with
  | some (a :: rest) => ({ s with actions := s.actions.insert name rest }, a)
  | _ => (s, s.fallback)

/-- The script with some of its entries replaced. -/
def replace (s : Script) (actions : Table Value (List DeployAction))
    (fallback : Option DeployAction) : Script :=
  { s with
    actions := actions.entries.foldl (fun t e => t.insert e.1 e.2) s.actions
    fallback := fallback.getD s.fallback }

end Script

/-- Takes the next action for a resource and remembers the call. -/
def beginDeploy (trace : Trace) (r : CatalogSourceConfig) : Activity (Cluster Script) DeployAction :=
  .step fun c =>
    let (script, a) := c.surroundings.next r.name
    ({ c with surroundings := { script with calls := script.calls ++ [.ensured trace.text r] } }, a)

/-- Creates a child without labels unless it is there. -/
def ensureChild (kind : String) (ns name : Value) : Call (Cluster Script) Unit := do
  match ← Cluster.get ⟨.text kind, ns, name⟩ (.only "ChildObject") with
  | some _ => return ()
  | none => Cluster.create (.child { kind := .text kind, name, ns })

/-- A deployment whose first container has its proxy variables in order, if it has a container. -/
def managedDeployment (p : ProxyStore) (d : Deployment) : Option Deployment :=
  match d.containers with
  | [] => none
  | c :: rest => some { d with containers := { c with env := p.manage d.env } :: rest }

/-- Creates the deployment of a resource, or puts the proxy variables of the one that is there in
order. -/
def ensureDeployment (r : CatalogSourceConfig) : Call (Cluster Script) Unit := do
  let found ← Cluster.get ⟨.text Kind.deployment, r.ns, r.name⟩ (.only "Deployment")
  let proxy := (← MonadState.get : Cluster Script).proxy
  match Cluster.deploymentOf found with
  | none =>
    Cluster.create (.deployment {
      name := r.name
      ns := r.ns
      containers := [{ name := .text "registry", env := proxy.manage [] }] })
  | some d =>
    match managedDeployment proxy d with
    | none => return ()
    | some d => Cluster.update (.deployment d)

/-- Creates the children of a resource or brings them up to date. -/
def ensureChildren (r : CatalogSourceConfig) : Call (Cluster Script) Unit := do
  ensureChild Kind.catalogSource r.spec.targetNamespace r.name
  ensureChild Kind.service r.ns r.name
  ensureDeployment r

/-- One call of the deployer. -/
def deploy (trace : Trace) (r : CatalogSourceConfig) :
    Activity (Cluster Script) (CatalogSourceConfig × Except Fault Unit) := do
  let a ← beginDeploy trace r
  let r := a.label.elim r fun l => r.setLabel l.1 l.2
  let wake ← a.seconds.elim (Activity.pure .elapsed) Activity.sleep
  if wake = .cancelled then return (r, .error (.cancelled ""))
  else
    match a.fails with
    | some f => return (r, .error f)
    | none =>
      if a.children then return (r, ← (ensureChildren r).toActivity)
      else return (r, .ok ())

/-- Fills in the summaries of the packages listed in a resource. -/
def summarize (r : CatalogSourceConfig) (c : Cluster Script) :
    Cluster Script × CatalogSourceConfig × Except Fault Unit :=
  let script := c.surroundings
  let c := { c with surroundings := { script with calls := script.calls ++ [.populated r] } }
  match CatalogSourceConfig.summaries? r with
  | .error f => (c, r, .error f)
  | .ok packages => (c, { r with packages }, .ok ())

/-- The deployer that follows the script of its surroundings. -/
def Deployer.scripted : Deployer Script where
  ensure := deploy
  populate := summarize

/-- Remembers the keys whose objects were found to be gone. -/
def noteDeletion : DeletionHook Script := fun key =>
  ExceptT.lift (Shared.modify fun s =>
    let script := s.cluster.surroundings
    { s with cluster := { s.cluster with
        surroundings := { script with noted := script.noted ++ [key] } } })

namespace Operator

/-- The script of an operator changed. -/
def mapScript (f : Script → Script) (o : Operator Script) : Operator Script :=
  o.mapShared fun s => { s with cluster := { s.cluster with surroundings := f s.cluster.surroundings } }

/-- What a controller that is there for one key did: whether the key has to be tried again, the deleted
keys noted so far, the keys it worked off after a resync, and the number it left. -/
structure ApartReport where
  again : Bool
  noted : List ObjectKey
  done : List (ObjectKey × Nat)
  left : Nat
  deriving Repr, Inhabited

/-- A controller of operator sources with default settings for all namespaces reconciles a key and
resyncs, and is gone afterwards. It may note the keys it finds deleted. -/
def reconcileApart (fuel limit : Nat) (deadline : Option Double) (noting : Bool) (key : ObjectKey) :
    Call (Operator Script) ApartReport :=
  let hook : DeletionHook Script := if noting then noteDeletion else fun _ => pure ()
  withController (Controller.sources .scripted hook none {} deadline) fun i => do
    let again ← reconcileNow fuel i key
    let noted := (← MonadState.get : Operator Script).shared.cluster.surroundings.noted
    resyncNow i
    let done ← drain fuel i limit
    let left := ((← MonadState.get : Operator Script).controllers[i]?).elim 0 (·.queue.queue.length)
    return { again, noted, done, left }

end Operator

end CatalogOperator
