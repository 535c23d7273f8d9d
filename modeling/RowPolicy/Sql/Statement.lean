import RowPolicy.Sql.Execution
import RowPolicy.Sql.Term.Change

/-!
# Statements

What selects the accessible rows is as a rule a statement of ours. A scope may put
anything else in its place: an expression has a text but cannot be run, and other
values have no text either.
-/

namespace RowPolicy.Sql

/-- A statement, or a value given in place of one. -/
inductive Statement where
  | select (s : Select)
  | given (v : Value)

namespace Statement

/-- The statement that a value stands for. -/
def ofValue : Value → Statement
  | .rows entity filter => select ⟨entity, [], filter, false⟩
  | v => given v

/-- An expression in place of a statement, or nothing. -/
def ofExpr? (e : Option Expr) : Statement := given (e.elim .null .expr)

/-- The truth value of a statement that is a bare constant. -/
def constant? : Statement → Option Bool
  | given (.expr e) => e.constant?
  | _ => none

/-- Write a statement. -/
def write {α : Type} (how : Template → Except PrintError α) : Statement → Except PrintError α
  | select s => s.write how
  | given (.expr e) => how (e.template [])
  | given _ => .error .notText

/-- The text of a statement with literal values. -/
def literalText (s : Statement) : Except PrintError String := s.write Template.literalText

/-- The text and the parameters of a statement. -/
def bound (s : Statement) : Except PrintError Template.Bound := s.write Template.bound

/-- The rows that a text returns which is a statement of its own. -/
def runText (db : Database) (text : String) : Except RunError (List (List Scalar)) :=
  let template := Fragment.template text
  match template.namedParameters with
  | name :: _ => .error (.noValue name)
  | [] => do
      let text := Template.heldText template
      let start := (Token.skipped text.toList).dropWhile (· == ';')
      if !text.contains '\x00' && start.isEmpty then throw .noRows
      let text := String.ofList start
      let words := (Lexeme.ofText? text).elim [] fun (lexemes, _) => lexemes.map Lexeme.token
      let begins (ks : List String) : Bool := words.head?.any fun t => ks.any t.isKeyword
      if begins Reader.commandWords then throw .noRows
      if begins Reader.changeWords then
        let rows ← (← ReadQuery.ofText db text Reader.change).run db []
        if words.any (·.isKeyword "RETURNING") then return rows else throw .noRows
      (← ReadQuery.ofText db text Reader.query).run db []

/-- The keys of the rows that a statement returns. The rows of a statement that is given as a
text have none, and neither have rows with a missing key. Equal keys are those of one row. -/
def runKeys (db : Database) : Statement → Except RunError (List (Option Scalar))
  | select s => do
      let hasKey := (s.entity.attribute? "id").isSome
      let keys ← s.runKeys db
      return (sameKeys [] keys).map fun key => if hasKey && key != .null then some key else none
  | given (.expr (.fragment text)) => (List.map fun _ => none) <$> runText db text
  | given _ => .error .notStatement
where
  /-- Every key as it was first met. -/
  sameKeys (seen : List Scalar) : List Scalar → List Scalar
    | [] => []
    | key :: rest =>
        let first := (seen.find? fun other => other.order? key == some (some .eq)).getD key
        first :: sameKeys (first :: seen) rest

end Statement

end RowPolicy.Sql
