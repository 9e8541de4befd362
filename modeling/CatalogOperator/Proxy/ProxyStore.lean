import CatalogOperator.Manifest.Basic
import CatalogOperator.Proxy.Environment

/-!
# `CatalogOperator.Proxy.ProxyStore`: the proxy values in force

The operator holds the proxy values of the cluster and may write them through to an environment.
Setting them is all or nothing: when a write fails, the former values are written again and nothing
else changes. If that fails too, its failure is the one that shows.

* `ProxyStore.set`: sets the values and tells whether they changed.
* `ProxyStore.vars`: the values as environment variables.
-/

set_option autoImplicit false

namespace CatalogOperator

namespace ProxyConfig

/-- The variables of the proxy values, in the order in which they are written. -/
def bindings (c : ProxyConfig) : List (String × Value) :=
  [("NO_PROXY", c.exempt), ("HTTP_PROXY", c.http), ("HTTPS_PROXY", c.https)]

/-- Whether two sets of proxy values count as equal. -/
def same (a b : ProxyConfig) : Bool :=
  a.content.same b.content

end ProxyConfig

/-- The proxy values in force, whether the cluster serves them, and the environment that receives
them. -/
structure ProxyStore where
  config : ProxyConfig := {}
  available : Bool := true
  environment : Option Environment := none
  deriving Inhabited

namespace ProxyStore

/-- Writes values through to the environment, if there is one. -/
def project (p : ProxyStore) (c : ProxyConfig) : ProxyStore × Option Fault :=
  match p.environment with
  | none => (p, none)
  | some e =>
    let (e, failed) := e.writeAll c.bindings
    ({ p with environment := some e }, failed)

/-- Sets the values and tells whether they changed. -/
def set (p : ProxyStore) (c : ProxyConfig) : ProxyStore × Except Fault Bool :=
  if p.config.same c then (p, .ok false)
  else
    match p.project c with
    | (p, none) => ({ p with config := c }, .ok true)
    | (p, some f) =>
      match p.project p.config with
      | (p, some f') => (p, .error f')
      | (p, none) => (p, .error f)

/-- The values as environment variables, empty ones included. -/
def vars (p : ProxyStore) : List EnvVar :=
  p.config.bindings.map fun v => ⟨.text v.1, v.2⟩

end ProxyStore

end CatalogOperator
