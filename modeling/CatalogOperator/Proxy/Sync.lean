import CatalogOperator.EnvList
import CatalogOperator.Proxy.ProxyStore

/-!
# `CatalogOperator.Proxy.Sync`: proxy variables of workloads

A managed workload carries the proxy values in force as environment variables: those that are not
empty, at the end of its environment.

* `ProxyStore.manage`: an environment with the proxy variables put in order.
* `ProxyStore.isStale?`: whether the proxy variables of an environment are out of date.
* `ProxyStore.deploymentIsStale?`: the same for a deployment. A deployment that does not exist, or one
  in a cluster that does not serve proxy values, never is.
-/

set_option autoImplicit false

namespace CatalogOperator

namespace ProxyStore

/-- An environment with the proxy variables put in order: the first variable of each of their names
is dropped, and every value that is not empty is put in. -/
def manage (p : ProxyStore) (env : List EnvVar) : List EnvVar :=
  let kept := p.vars.foldl (fun e v => EnvList.erase e v.name) env
  EnvList.merge kept (p.vars.filter fun v => v.value.isTrue)

/-- Whether the environment holds another value in force under the name of a variable. -/
def overrides (env : List EnvVar) (v : EnvVar) : Bool :=
  EnvList.hasName env v.name && (EnvList.inForce env v.name).differs v.value

/-- Whether the proxy variables of an environment are out of date: putting them in order changes the
number of variables or a value in force. -/
def isStale (p : ProxyStore) (env : List EnvVar) : Bool :=
  let managed := p.manage env
  managed.length != env.length || managed.any fun v => overrides env v

/-- Whether the proxy variables of an environment are out of date. Names are looked up only when the
number of variables does not tell already. -/
def isStale? (p : ProxyStore) (env : List EnvVar) : Except Fault Bool :=
  if (p.manage env).length != env.length then .ok true
  else
    match EnvList.fault? env with
    | some f => .error f
    | none => .ok (p.isStale env)

/-- Whether a deployment has to be updated. The names of its variables are looked up. -/
def deploymentIsStale? (p : ProxyStore) (d : Option Deployment) : Except Fault Bool :=
  match d with
  | none => .ok false
  | some d =>
    if !p.available then .ok false
    else
      match EnvList.fault? d.env with
      | some f => .error f
      | none => .ok (p.isStale d.env)

end ProxyStore

end CatalogOperator
