import RowPolicy.Join.Printer
import RowPolicy.Query.Records

/-!
# Explanations

An explanation shows how the statement of a query comes about: the strategy, every
relevant rule with its own condition, the combined filter, the joins and the statement
itself, all of them as text with literal values.
-/

namespace RowPolicy

/-- What an explanation says about a rule. -/
structure RuleExplanation where
  /-- `can` or `cannot`. -/
  verb : Value
  actions : Value
  subjects : Value
  conditionKind : Value
  /-- The condition of the rule, empty if it is blank. -/
  condition : Value

/-- How a statement comes about. An explanation may also be written by hand, so that its
fields can be any values; those of a query are texts. -/
structure Explanation where
  entity : Value
  action : Value
  strategy : Value
  /-- The relevant rules, latest first. -/
  rules : List RuleExplanation
  /-- The combined filter, empty if there is none. -/
  predicate : Value
  joins : Option JoinList
  statement : Value

namespace Explanation

/-- The lines about the rules. -/
def ruleLines : List RuleExplanation → List String
  | [] => ["  DENY BY DEFAULT (no relevant rules)"]
  | rules =>
      ("  Rules (" ++ toString rules.length ++ ", latest first):") :: rules.flatMap fun rule =>
        ["    - " ++ rule.verb.plainText ++ " " ++ rule.actions.plainText ++ " "
            ++ rule.subjects.plainText ++ " [" ++ rule.conditionKind.plainText ++ "]",
          "      SQL: " ++ rule.condition.plainText]

/-- The line about the combined filter, if there is one. -/
def predicateLines (e : Explanation) : List String :=
  if e.predicate.isPresent then ["  Combined SQL: " ++ e.predicate.plainText] else []

/-- The line about the joins, if there are any. -/
def joinLines (e : Explanation) : List String :=
  match e.joins with
  | none | some .nil => []
  | some list => ["  Joins: " ++ list.text]

/-- An explanation as text of several lines. -/
def text (e : Explanation) : String :=
  String.intercalate "\n" <|
    ["Accessible " ++ e.entity.plainText ++ " for action=" ++ e.action.text,
      "  Strategy: " ++ e.strategy.plainText, ""]
    ++ ruleLines e.rules ++ e.predicateLines ++ e.joinLines
    ++ ["", "  Authorized SQL: " ++ e.statement.plainText]

end Explanation

/-- Why a query cannot be explained. -/
inductive ExplainError where
  | query (e : QueryError)
  | print (e : Sql.PrintError)

namespace Query

/-- A result of a query as part of an explanation. -/
def explaining {α : Type} : Except QueryError α → Except ExplainError α
  | .ok a => .ok a
  | .error e => .error (.query e)

/-- A text as part of an explanation. -/
def printing {α : Type} : Except Sql.PrintError α → Except ExplainError α
  | .ok a => .ok a
  | .error e => .error (.print e)

/-- The entity on which a rule's condition is resolved: the queried one or, for a
proxy, the primary subject of the rule. -/
def ruleEntity (q : Query) (rule : Rule) : Except QueryError String :=
  if q.isProxy then
    match rule.primarySubject? with
    | some (.kind name) => .ok name
    | some (.label _) => .ok q.entity
    | none => .error .noSubject
  else .ok q.entity

/-- The text of a rule's own condition. -/
def conditionText (q : Query) (rule : Rule) : Except ExplainError String :=
  match rule.condition with
  | .scope body => printing (Sql.Statement.ofValue body).literalText
  | .mapping _ | .fragment _ => do
      let entity ← explaining (q.ruleEntity rule)
      match ← explaining (q.ruleExpr rule entity) with
      | some e => printing e.literalText
      | none => return ""

/-- What the explanation says about a rule. -/
def explainRule (q : Query) (rule : Rule) : Except ExplainError RuleExplanation := do
  return { verb := .str rule.verb
           actions := .texts rule.actions
           subjects := .texts (rule.subjects.map Subject.name)
           conditionKind := .str rule.condition.kind.name
           condition := .str (← q.conditionText rule) }

/-- The filter of the statement that the strategy builds; a scope has none of ours. -/
def statementFilter (q : Query) : Except QueryError (Option Sql.Expr) :=
  match q.strategy with
  | .scope => .ok none
  | .denyByDefault => .ok (some (.const false))
  | .proxy => some <$> q.subjectPredicate
  | .merged => some <$> q.predicate
  | .fallback => some <$> q.unionPredicate

/-- How the statement of the query comes about. It fails wherever building or writing
the statement fails. -/
def explain (q : Query) : Except ExplainError Explanation := do
  let statement ← explaining q.statement
  let filter ← explaining q.statementFilter
  let rules ← q.rules.mapM q.explainRule
  let predicate ← match filter with
    | some e => printing e.literalText
    | none => pure ""
  let joins := if q.strategy = .merged ∨ q.strategy = .fallback then q.joins else none
  return { entity := .str q.entity
           action := q.action
           strategy := .str q.strategy.name
           rules := rules
           predicate := .str predicate
           joins := joins
           statement := .str (← printing statement.literalText) }

end Query

end RowPolicy
