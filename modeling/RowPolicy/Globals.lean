import RowPolicy.Config
import RowPolicy.Proxy

/-!
# Shared state and its isolation

The configuration and the registry of proxies are shared by all queries. They can be
isolated for a while: inside, both start afresh or with a given configuration, and
afterwards both are as they were before, whatever happened inside.
-/

namespace RowPolicy

/-- The state shared by all queries. -/
structure Globals where
  config : Config := .standard
  proxies : ProxyRegistry := ∅

namespace Globals

instance : Inhabited Globals := ⟨⟨.standard, ∅⟩⟩

/-- Change some settings; settings that are refused change nothing. -/
def configure (g : Globals) (overrides : Settings) : Except ConfigError Globals := do
  return { g with config := ← g.config.merge overrides }

/-- Go back to the standard configuration. -/
def resetConfig (g : Globals) : Globals := { g with config := .standard }

/-- Make an entity a proxy. -/
def configureProxy (g : Globals) (entity field : String) : Except ProxyError Globals := do
  return { g with proxies := ← g.proxies.configure entity field }

/-- Forget all proxies. -/
def clearProxies (g : Globals) : Globals := { g with proxies := ∅ }

/-- The state inside an isolation. -/
def inside (config : Option Config) : Globals := ⟨config.getD .standard, ∅⟩

/-- The state after an isolation, given the state before it: the proxies are
configured again one by one. -/
def restored (before : Globals) : Except ProxyError Globals := do
  return ⟨before.config, ← (∅ : ProxyRegistry).configureAll before.proxies.fields.entries⟩

/-- Run a body in isolation. The outcome of the body is kept unless restoring the state
fails. -/
def isolated {ε α : Type} (lift : ProxyError → ε) (config : Option Config)
    (body : Globals → Globals × Except ε α) (before : Globals) : Globals × Except ε α :=
  let (after, outcome) := body (inside config)
  match before.restored with
  | .ok restored => (restored, outcome)
  | .error e => (after, .error (lift e))

end Globals

end RowPolicy
