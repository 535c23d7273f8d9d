import RowPolicy.Value.Order
import RowPolicy.Value.Printer

/-!
# Configuration

A configuration is made of settings, which are checked when it is made, and merged
with further settings, of which only those that are given count. A setting that is
refused leaves the configuration as it was. Settings are given as values, and not every
setting has to be of one type: what counts may be whether a value is there at all.
-/

namespace RowPolicy

/-- What to do when no rule is relevant. -/
inductive MissingRules where
  /-- Select no row. -/
  | deny
  /-- Fail. -/
  | fail
  deriving DecidableEq, Repr

namespace MissingRules

/-- The names of the choices. -/
def names : List (String × MissingRules) := [("deny", deny), ("raise", fail)]

/-- The name of a choice. -/
def name : MissingRules → String
  | deny => "deny"
  | fail => "raise"

end MissingRules

/-- What to do when conditions cannot be combined. -/
inductive FallbackQuery where
  /-- Use all conditions side by side. -/
  | ignore
  /-- Fail. -/
  | fail
  /-- Use all conditions side by side, and log a warning. -/
  | warn
  deriving DecidableEq, Repr

namespace FallbackQuery

/-- The names of the choices. -/
def names : List (String × FallbackQuery) :=
  [("ignore", ignore), ("raise", fail), ("warn", warn)]

/-- The name of a choice. -/
def name : FallbackQuery → String
  | ignore => "ignore"
  | fail => "raise"
  | warn => "warn"

end FallbackQuery

/-- How queries are built. -/
structure Config where
  /-- The action that is meant if none is given. -/
  defaultAction : Value
  onMissingRules : MissingRules
  /-- Whether every query built is logged. -/
  logQueries : Value
  onFallbackQuery : FallbackQuery
  defaultAction_isPresent : defaultAction.isPresent = true

/-- The standard configuration. -/
def Config.standard : Config := ⟨.str "index", .deny, .bool false, .warn, rfl⟩

instance : Inhabited Config := ⟨.standard⟩

/-- Values for the fields of a configuration, not yet checked; a field may have none. -/
structure Settings where
  defaultAction : Option Value := none
  onMissingRules : Option Value := none
  logQueries : Option Value := none
  onFallbackQuery : Option Value := none

/-- Why settings are refused. -/
inductive ConfigError where
  /-- The default action is empty. -/
  | emptyAction
  /-- A field has a value other than its choices. -/
  | notAChoice (field : String) (choices : List String) (given : Value)
  /-- The value of a field cannot be looked up among its choices. -/
  | fault (f : Fault)

namespace ConfigError

/-- The text of the error. -/
def message : ConfigError → String
  | emptyAction => "default_action must be a non-empty string"
  | notAChoice field choices given =>
      field ++ " must be one of \x7b" ++ Text.commaSeparated (choices.map Text.quoted)
        ++ "\x7d, got " ++ given.text
  | fault _ => "The setting cannot be looked up"

end ConfigError

namespace Settings

/-- The choice that a value names. -/
def choose {α : Type} (field : String) (choices : List (String × α)) (given : Value) :
    Except ConfigError α :=
  match choices.find? fun choice => given.same (.str choice.1) with
  | some choice => .ok choice.2
  | none =>
      if given.isKey then .error (.notAChoice field (choices.map Prod.fst) given)
      else .error (.fault .notKey)

/-- The configuration with the given settings. A field without a setting has the value
null, which is no choice. -/
def check (s : Settings) : Except ConfigError Config :=
  let action := s.defaultAction.getD .null
  if h : action.isPresent = true then do
    let missing ← choose "on_missing_rules" MissingRules.names (s.onMissingRules.getD .null)
    let fallback ← choose "on_fallback_query" FallbackQuery.names (s.onFallbackQuery.getD .null)
    return ⟨action, missing, s.logQueries.getD .null, fallback, h⟩
  else .error .emptyAction

/-- The settings of the second, and those of the first where it has none. -/
def overriddenBy (s overrides : Settings) : Settings where
  defaultAction := overrides.defaultAction.or s.defaultAction
  onMissingRules := overrides.onMissingRules.or s.onMissingRules
  logQueries := overrides.logQueries.or s.logQueries
  onFallbackQuery := overrides.onFallbackQuery.or s.onFallbackQuery

end Settings

namespace Config

/-- The settings of a configuration. -/
def settings (c : Config) : Settings where
  defaultAction := some c.defaultAction
  onMissingRules := some (.str c.onMissingRules.name)
  logQueries := some c.logQueries
  onFallbackQuery := some (.str c.onFallbackQuery.name)

/-- The configuration with some settings replaced. -/
def merge (c : Config) (overrides : Settings) : Except ConfigError Config :=
  (c.settings.overriddenBy overrides).check

/-- Whether two configurations have equal fields. -/
def same (c d : Config) : Bool :=
  c.defaultAction.same d.defaultAction && c.onMissingRules == d.onMissingRules
    && c.logQueries.same d.logQueries && c.onFallbackQuery == d.onFallbackQuery

end Config

end RowPolicy
