import RowPolicy.Config
import RowPolicy.Filter.Flatten
import RowPolicy.Filter.Precedence
import RowPolicy.Proxy
import RowPolicy.Query.Error

/-!
# Queries

A query combines the rules that are relevant for an action on an entity, latest rule
first, into one filter. A single allowing rule stands for itself. A proxy resolves the
condition of each rule on the rule's primary subject and guards it, so that it holds
only of rows that refer to such a subject.
-/

namespace RowPolicy

/-- The rules relevant for an action on an entity, and what is needed to combine them. -/
structure Query where
  schema : Schema
  entity : String
  /-- The action, as a rule a text; null if none is meant. -/
  action : Value
  /-- The relevant rules, latest first. -/
  rules : List Rule
  proxies : ProxyRegistry
  config : Config

/-- The ways to build a statement. -/
inductive Strategy where
  /-- A rule supplies the statement. -/
  | scope
  /-- There is no rule, so no row is selected. -/
  | denyByDefault
  /-- The subjects of the rules are joined to a proxy. -/
  | proxy
  /-- The conditions are combined by precedence. -/
  | merged
  /-- The conditions stand side by side. -/
  | fallback
  deriving DecidableEq, Repr

/-- The name of a strategy. -/
def Strategy.name : Strategy → String
  | scope => "scope"
  | denyByDefault => "deny_by_default"
  | proxy => "proxy"
  | merged => "merged"
  | fallback => "fallback"

namespace Query

/-- The field of the queried entity, if it is a proxy. -/
def proxy? (q : Query) : Option ProxyField := q.proxies.lookup q.entity

/-- Whether the queried entity is a proxy. -/
def isProxy (q : Query) : Bool := q.proxy?.isSome

/-- Whether the conditions of all rules can be combined. -/
def isMergeable (q : Query) : Bool := q.rules.all (·.condition.isMergeable)

/-- The filter of a rule's condition on an entity. -/
def ruleFilter (q : Query) (rule : Rule) (entity : String) : Except QueryError Filter :=
  liftLookup (rule.condition.toFilter q.schema.naming q.isProxy entity)

/-- The expression of a rule's condition on an entity; a blank condition has none. -/
def ruleExpr (q : Query) (rule : Rule) (entity : String) :
    Except QueryError (Option Sql.Expr) :=
  if rule.condition.isBlank then .ok none
  else do return some (← liftFilter ((← q.ruleFilter rule entity).toExpr q.schema entity))

/-- The expressions of the rules combined by precedence, earliest rule first. -/
def combined (q : Query) : Except QueryError Sql.Expr :=
  q.rules.reverse.foldlM
    (fun acc rule => do liftFilter (acc.override rule.allow (← q.ruleExpr rule q.entity)))
    (.const false)

/-- The combined conditions; those of a single allowing rule are kept as a filter. -/
def filter (q : Query) : Except QueryError Filter :=
  match q.rules with
  | [rule] => if rule.allow then q.ruleFilter rule q.entity else (.value <| .expr ·) <$> q.combined
  | _ => (.value <| .expr ·) <$> q.combined

/-- The combined conditions as an expression. -/
def predicate (q : Query) : Except QueryError Sql.Expr := do
  liftFilter ((← q.filter).toExpr q.schema q.entity)

/-- The joins that the conditions need, if any. -/
def joins (q : Query) : Option JoinList := JoinList.ofRules q.rules

/-- The kind of subject on which a proxy resolves a rule's condition. -/
def proxySubject (q : Query) (rule : Rule) : Except QueryError String :=
  match rule.primarySubject? with
  | none => .error .noSubject
  | some (.kind name) => .ok name
  | some (.label text) =>
      .error (.filter (.schema (.described q.entity text
        ("Rules on polymorphic proxy " ++ q.entity ++ " need a mapped primary subject, got "
          ++ Text.quoted text))))

/-- A rule's condition on its subject, guarded by the subject's key. -/
def guardedExpr (q : Query) (rule : Rule) : Except QueryError Sql.Expr := do
  let subject ← q.proxySubject rule
  let condition ← q.ruleExpr rule subject
  let key ← liftLookup (q.schema.primaryKey subject)
  return .guarded key (condition.getD (.const true))

/-- The guarded conditions combined by precedence, earliest rule first. -/
def combinedGuarded (q : Query) : Except QueryError (Option Sql.Expr) :=
  q.rules.reverse.foldlM
    (fun acc rule => do
      some <$> liftFilter (Sql.Expr.overrideGuarded acc rule.allow (← q.guardedExpr rule)))
    none

/-- The combined conditions on the joined subjects of a proxy. -/
def subjectPredicate (q : Query) : Except QueryError Sql.Expr :=
  let combined := do return (← q.combinedGuarded).getD (.const false)
  match q.rules with
  | [rule] => if rule.allow then q.guardedExpr rule else combined
  | _ => combined

/-- The conditions of all rules side by side, denying ones as if they allowed. -/
def unionPredicate (q : Query) : Except QueryError Sql.Expr := do
  let parts ← q.rules.mapM fun rule => do
    return (← q.ruleExpr rule q.entity).getD (.const true)
  return .disjunction (.const false :: parts)

/-- The bodies of the scopes among the conditions, with their rules. -/
def scopes (q : Query) : List (Rule × Value) :=
  q.rules.filterMap fun rule =>
    match rule.condition with
    | .scope body => some (rule, body)
    | .mapping _ | .fragment _ => none

/-- What a scope supplies in place of a statement, if there is one. A scope must be the
only condition. -/
def scopeBody (q : Query) : Except QueryError (Option Value) :=
  match q.scopes, q.rules with
  | [], _ => .ok none
  | (_, body) :: _, [_] => .ok (some body)
  | (rule, _) :: _, rules => do
      let action ← rule.actions.head?.elim (.error .noAction) .ok
      let subject ← rule.primarySubject?.elim (.error .noSubject) .ok
      throw (.unmergeable (.str action) subject.name rules .scope)

/-- How the statement is built. -/
def strategy (q : Query) : Strategy :=
  if !q.scopes.isEmpty then .scope
  else if q.rules.isEmpty then .denyByDefault
  else if q.isProxy then .proxy
  else if q.isMergeable then .merged
  else .fallback

end Query

end RowPolicy
