import RowPolicy.Globals
import RowPolicy.Policy
import RowPolicy.Query.Log

/-!
# Sessions

A session holds the policy of one actor, the shared state with the isolations that are
open, and a registry of proxies of its own. Queries use the shared registry unless
asked to use the session's own.
-/

namespace RowPolicy

/-- The state of a session. -/
structure Session where
  policy : Policy := ∅
  globals : Globals := {}
  /-- Proxies known to this session only. -/
  ownProxies : ProxyRegistry := ∅
  /-- The shared states to return to, innermost isolation first. -/
  saved : List Globals := []
  /-- The least level of entries that are logged. -/
  logThreshold : LogLevel := .warning

/-- The registry a request refers to. -/
inductive RegistryChoice where
  | shared
  | own
  deriving DecidableEq, Repr

/-- Why an isolation cannot be left. -/
inductive RestoreError where
  /-- No isolation is open. -/
  | nothingToRestore
  | proxy (e : ProxyError)
  deriving DecidableEq, Repr

namespace Session

/-- The registry that is meant. -/
def registry (s : Session) : RegistryChoice → ProxyRegistry
  | .shared => s.globals.proxies
  | .own => s.ownProxies

/-- Replace a registry. -/
def setRegistry (s : Session) (choice : RegistryChoice) (registry : ProxyRegistry) : Session :=
  match choice with
  | .shared => { s with globals := { s.globals with proxies := registry } }
  | .own => { s with ownProxies := registry }

/-- Make an entity a proxy in a registry. -/
def configureProxy (s : Session) (choice : RegistryChoice) (entity field : String) :
    Except ProxyError Session := do
  return s.setRegistry choice (← (s.registry choice).configure entity field)

/-- Open an isolation. -/
def isolate (s : Session) (config : Option Config) : Session :=
  { s with globals := .inside config, saved := s.globals :: s.saved }

/-- Leave the innermost isolation. -/
def restore (s : Session) : Except RestoreError Session :=
  match s.saved with
  | [] => .error .nothingToRestore
  | before :: rest =>
      match before.restored with
      | .ok globals => .ok { s with globals := globals, saved := rest }
      | .error e => .error (.proxy e)

/-- The action that is meant: the configured one if none is given. -/
def actionMeant (s : Session) (given : Value) : Value :=
  if given.isNull then s.globals.config.defaultAction else given

/-- The query for the rows of an entity on which an action is allowed. -/
def query (s : Session) (schema : Schema) (entity : String) (action : Value)
    (choice : RegistryChoice) : Except Fault Query := do
  return { schema := schema
           entity := entity
           action := action
           rules := ← s.policy.relevant schema action (some (.kind entity))
           proxies := s.registry choice
           config := s.globals.config }

end Session

end RowPolicy
