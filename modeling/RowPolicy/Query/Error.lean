import RowPolicy.Filter.Error
import RowPolicy.Rule
import RowPolicy.Value.Printer

/-!
# Failures of queries

A query fails if a filter cannot be built, if its rules cannot be combined, if a rule
lacks the action or subject that is needed, or if there is nothing to select from.
-/

namespace RowPolicy

/-- Why rules cannot be combined. -/
inductive Conflict where
  /-- Some conditions are not mappings. -/
  | conditions
  /-- A scope stands beside other conditions. -/
  | scope
  /-- A proxy has rules with conditions on associations. -/
  | associations
  /-- A reason given in other words. -/
  | described (message : String)
  deriving DecidableEq, Repr

/-- Why a query has no statement. -/
inductive QueryError where
  | filter (e : FilterError)
  /-- The rules cannot be combined. -/
  | unmergeable (action : Value) (subject : String) (rules : List Rule) (conflict : Conflict)
  /-- No rule is relevant. -/
  | noRules (action : Value) (subject : String)
  /-- A rule has no action. -/
  | noAction
  /-- A rule has no subject. -/
  | noSubject
  /-- The entity is not stored in a table. -/
  | notStored (entity : String)
  /-- A scope supplies nothing. -/
  | emptyScope

namespace Conflict

/-- The text for rules that cannot be combined. -/
def message (action : Value) (subject : String) (rules : List Rule) : Conflict → String
  | conditions =>
      "Unable to merge the conditions of " ++ toString rules.length ++ " rule(s) for "
        ++ action.plainText ++ " " ++ subject ++ " ability. Use a condition mapping instead."
  | scope =>
      "Unable to merge a Select scope with other conditions. Instead use a mapping or SQL for "
        ++ action.plainText ++ " " ++ subject ++ " ability (" ++ toString rules.length
        ++ " conflicting rules: " ++ Rule.listText rules ++ ")."
  | associations =>
      "Association conditions are not supported on polymorphic proxy " ++ subject
        ++ ". The rules are mergeable, but proxy queries only left-join each subject table on "
        ++ "its primary key, so an association table would be referenced without a join. Use "
        ++ "conditions on the subject's own columns instead."
  | described message => message

end Conflict

namespace QueryError

/-- The text of the error. -/
def message : QueryError → String
  | filter e => e.message
  | unmergeable action subject rules conflict => conflict.message action subject rules
  | noRules action subject =>
      "No rule defined for (" ++ subject ++ ", " ++ action.text ++ ")"
  | noAction => "The rule has no action"
  | noSubject => "The rule has no subject"
  | notStored entity => entity ++ " is not stored in a table"
  | emptyScope => ""

end QueryError

/-- A result of building a filter as part of a query. -/
def liftFilter {α : Type} : Except FilterError α → Except QueryError α
  | .ok a => .ok a
  | .error e => .error (.filter e)

/-- A result of the schema as part of a query. -/
def liftLookup {α : Type} (result : Except SchemaError α) : Except QueryError α :=
  liftFilter (liftSchema result)

end RowPolicy
