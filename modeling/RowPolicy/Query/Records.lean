import RowPolicy.Join.Apply
import RowPolicy.Query
import RowPolicy.Sql.Statement

/-!
# Accessible records

The statement that selects the rows on which an action is allowed, built in the way
that the strategy of the query says. Together with the statement the filter and the
joins are kept where it was built from them.
-/

namespace RowPolicy

/-- A statement, with the filter and the joins it was built from. -/
structure Records where
  statement : Sql.Statement
  predicate : Option Sql.Expr
  joins : Option JoinList

namespace Query

/-- The statement that selects all rows of the queried entity. -/
def allRows (q : Query) : Except QueryError Sql.Select :=
  match q.schema.entity? q.entity with
  | some e => .ok (.ofEntity e)
  | none => .error (.notStored q.entity)

/-- The rows for which a filter holds. -/
def rowsWhere (q : Query) (predicate : Sql.Expr) : Except QueryError Sql.Select := do
  return { ← q.allRows with filter := some predicate }

/-- The action named in an error: the queried one or, failing that, the first action
of the first rule concerned. -/
def actionFor (q : Query) (rules : List Rule) : Except QueryError Value :=
  if q.action.isPresent then .ok q.action
  else
    match rules with
    | ⟨_, action :: _, _, _⟩ :: _ => .ok (.str action)
    | _ => .error .noAction

/-- Refuse to continue if there are such rules. -/
def refuse (q : Query) (rules : List Rule) (conflict : Conflict) : Except QueryError Unit :=
  if rules.isEmpty then .ok ()
  else do throw (.unmergeable (← q.actionFor rules) q.entity rules conflict)

/-- The outer join of a proxy to a subject: the row referred to is of the subject's
kind and has the key that the proxy holds. -/
def subjectJoin (q : Query) (typeColumn idColumn : Sql.Column) (subject : String) :
    Except QueryError Sql.Join := do
  let key ← liftLookup (q.schema.primaryKey subject)
  let entity ← liftLookup (q.schema.entity subject "id")
  return .outer entity (.conjunction
    [.compare .eq typeColumn (.value (.str subject)), .compare .eq idColumn (.column key)])

/-- The statement for a proxy: every subject of the rules is joined once. -/
def proxyStatement (q : Query) (field : ProxyField) : Except QueryError Sql.Select := do
  q.refuse (q.rules.filter fun rule => !rule.condition.isMergeable) .conditions
  q.refuse (q.rules.filter fun rule => !rule.condition.associations.isEmpty) .associations
  let typeColumn ← liftLookup (q.schema.column q.entity field.typeColumn)
  let idColumn ← liftLookup (q.schema.column q.entity field.idColumn)
  let base ← q.allRows
  let subjects ← q.rules.mapM q.proxySubject
  let joins ← subjects.eraseDups.mapM (q.subjectJoin typeColumn idColumn)
  return { base with joins := joins, filter := some (← q.subjectPredicate) }

/-- The rows for which a filter holds, joined along the associations of the rules.
Rows repeated by a join are dropped. -/
def joinedStatement (q : Query) (predicate : Sql.Expr) : Except QueryError Sql.Select := do
  let list := q.joins.getD .nil
  let joined ← liftLookup (q.schema.applyJoins list q.entity (← q.rowsWhere predicate))
  return { joined with distinct := ← liftLookup (q.schema.crossesMany list q.entity) }

/-- The statement if no rule is relevant. -/
def emptyRecords (q : Query) : Except QueryError Records :=
  match q.config.onMissingRules with
  | .fail => .error (.noRules q.action q.entity)
  | .deny => do return ⟨.select (← q.rowsWhere (.const false)), some (.const false), none⟩

/-- The statement for conditions combined by precedence. -/
def mergedRecords (q : Query) : Except QueryError Records := do
  let predicate ← q.predicate
  return ⟨.select (← q.joinedStatement predicate), some predicate, q.joins⟩

/-- The statement for conditions side by side, where that is wanted. -/
def fallbackRecords (q : Query) : Except QueryError Records :=
  match q.config.onFallbackQuery with
  | .fail => .error (.unmergeable q.action q.entity q.rules .conditions)
  | .ignore | .warn => do
      let predicate ← q.unionPredicate
      return ⟨.select (← q.joinedStatement predicate), some predicate, q.joins⟩

/-- The statement for the accessible rows: that of a scope if there is one, and else
the one built for the rules. -/
def records (q : Query) : Except QueryError Records := do
  match ← q.scopeBody with
  | some .null => throw .emptyScope
  | some body => return ⟨.ofValue body, none, none⟩
  | none =>
      if q.rules.isEmpty then q.emptyRecords
      else
        match q.proxy? with
        | some field => return ⟨.select (← q.proxyStatement field), none, none⟩
        | none => if q.isMergeable then q.mergedRecords else q.fallbackRecords

/-- The statement that selects the accessible rows. -/
def statement (q : Query) : Except QueryError Sql.Statement := Records.statement <$> q.records

end Query

end RowPolicy
