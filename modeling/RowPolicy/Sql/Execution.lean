import RowPolicy.Sql.Formula.Resolution
import RowPolicy.Sql.Formula.Semantics
import RowPolicy.Sql.Select
import RowPolicy.Sql.Semantics
import RowPolicy.Sql.Term.Parser

/-!
# Running statements

Running a statement goes through all combinations of rows that the joins allow, keeps
those for which the filter is true, and returns the cells of the selected entity for
each of them. A filter of plain comparisons has a meaning of its own. A statement with any other
filter is written down with place holders and read again as one text, because a fragment
may bind tighter or looser than what stands around it, and may go on with groups, an
order, limits or further selections.
-/

namespace RowPolicy.Sql

/-- One row of each joined table, with the name of the table in the statement. -/
abbrev JoinedRow := List (String × Row)

/-- The cell of a column; a table that is not joined has missing values only. -/
def JoinedRow.cell (row : JoinedRow) (c : Column) : Scalar :=
  ((Entries.get? c.table row).getD Row.missing) c.name

/-- Why a statement cannot be run. -/
inductive RunError where
  /-- It cannot be written down. -/
  | print (e : PrintError)
  /-- A parameter that is named in a fragment has no value. -/
  | noValue (name : String)
  /-- A value cannot be passed for its parameter. -/
  | parameter (e : ParameterError)
  /-- A table is joined twice, so its columns are ambiguous. -/
  | ambiguousTable (table : String)
  /-- A table is referred to before it is joined. -/
  | notJoined (table : String)
  /-- The filter is no condition. -/
  | malformed
  | term (e : TermError)
  | eval (e : EvalError)
  /-- The filter contains a null character. -/
  | nullCharacter
  /-- Another statement follows. -/
  | severalStatements
  /-- The filter has a different number of place holders than there are values. -/
  | valueCount
  /-- What should be run is no statement. -/
  | notStatement
  /-- The statement returns no rows at all. -/
  | noRows
  /-- A row that is returned has no key. -/
  | noKey
  deriving DecidableEq, Repr

namespace Database

/-- Whether a plain condition is true on a joined row. -/
def holds (e : Expr) (row : JoinedRow) : Bool := e.eval row.cell == .yes

/-- Whether two cells that link rows are equal, as they are. -/
def linked (a b : Scalar) : Bool := Relation.eq.test .none a .none b == .yes

/-- The joined row extended by each row of a table. -/
def extend (db : Database) (row : JoinedRow) (table : String) : List JoinedRow :=
  (db.rows table).map fun r => row ++ [(table, r)]

/-- The extensions of a joined row by the rows to which a link leads. The row of a linking
table stands in between, under a name with the given number. -/
def follow (db : Database) (row : JoinedRow) (target : String) (number : Nat) :
    Link → List JoinedRow
  | .direct left right =>
      (db.extend row target).filter fun j => linked (j.cell left) (j.cell right)
  | .through via source near goal far =>
      (db.rows via).flatMap fun link =>
        if linked (row.cell source) (link near) then
          let row := row ++ [(Template.generatedName via number, link)]
          (db.extend row target).filter fun j => linked (j.cell goal) (link far)
        else []

/-- The extensions of a joined row by one join. -/
def joinOne (db : Database) (row : JoinedRow) : Join × Nat → List JoinedRow
  | (.related _ relationship target, number) =>
      db.follow row target.table number relationship.link
  | (.outer subject on, _) =>
      let found := (db.extend row subject.table).filter (holds on)
      if found.isEmpty then [row ++ [(subject.table, Row.missing)]] else found

end Database

/-- The values of parameters converted to the types of these. -/
def convertAll (values : List (ScalarType × Value)) : Except RunError (List Value) :=
  values.mapM fun (type, v) =>
    match type.convert? v with
    | some v => .ok v
    | none => .error (.parameter (.unconvertible type))

/-- The cells that are passed for converted values. -/
def passAll (values : List Value) : Except RunError (List Scalar) :=
  values.mapM fun v => v.pass.mapError .parameter

/-- A query that was read from a text. -/
structure ReadQuery where
  plan : Plan
  /-- The number of values that it has places for. -/
  valueCount : Nat
  /-- Whether another statement follows. -/
  isFollowed : Bool
  /-- More than the depth of the plan. -/
  fuel : Nat

namespace ReadQuery

/-- Read a query from a text. -/
def ofText (db : Database) (text : String) (read : Nat → Reader Query) :
    Except RunError ReadQuery := do
  if text.contains '\x00' then throw .nullCharacter
  let (lexemes, isFollowed) ← (Lexeme.ofText? text).elim (.error .malformed) .ok
  let query ← (Reader.readAll read lexemes).elim (.error .malformed) .ok
  let fuel := Reader.fuelFor lexemes
  let start : Surroundings := ⟨db, 0, [], [], []⟩
  let ((plan, _), _) ← ((Resolver.query fuel start query).run ⟨[], [], [], 0⟩).mapError .term
  return ⟨plan, Lexeme.valueCount lexemes, isFollowed, 4 * fuel⟩

/-- The rows that a query finds with the values passed. -/
def run (db : Database) (q : ReadQuery) (values : List Value) :
    Except RunError (List (List Scalar)) := do
  if q.isFollowed then throw .severalStatements
  if q.valueCount ≠ values.length then throw .valueCount
  let passed ← passAll values
  (q.plan.run q.fuel ⟨db, passed, [], []⟩).mapError .eval

end ReadQuery

namespace Select

/-- All combinations of rows that the joins of a statement allow. -/
def combinations (db : Database) (s : Select) : List JoinedRow :=
  let base := (db.rows s.entity.table).map fun r => [(s.entity.table, r)]
  let joined := s.numberedJoins.foldl (fun rows j => rows.flatMap fun row => db.joinOne row j) base
  s.extraTables.foldl (fun rows table => rows.flatMap fun row => db.extend row table) joined

/-- The combinations for which a plain filter is true. -/
def selected (db : Database) (s : Select) : List JoinedRow :=
  match s.filter with
  | none => s.combinations db
  | some e => (s.combinations db).filter (Database.holds e)

/-- The cells of the selected entity in a joined row. -/
def cells (s : Select) (row : JoinedRow) : List Scalar := s.entity.columns.map row.cell

/-- The values of all parameters, converted. The statement must have a text, in which
every parameter has a value. -/
def convertedValues (s : Select) : Except RunError (List Value) :=
  match s.bound with
  | .error e => .error (.print e)
  | .ok _ =>
      match s.template.namedParameters with
      | name :: _ => .error (.noValue name)
      | [] => convertAll s.template.values

/-- The first table that occurs twice. -/
def repeated? : List String → Option String
  | [] => none
  | t :: rest => if t ∈ rest then some t else repeated? rest

/-- The first table that an outer join refers to before it is joined, given the tables
joined so far. -/
def notJoined? (known : List String) : List Join → Option String
  | [] => none
  | .outer subject on :: rest =>
      let known := subject.table :: known
      (on.tables.find? fun t => !known.contains t).or (notJoined? known rest)
  | .related _ _ target :: rest => notJoined? (target.table :: known) rest

/-- Whether all tables of a statement can be told apart and are joined in time. -/
def checkTables (s : Select) : Except RunError Unit :=
  match repeated? s.tables with
  | some table => .error (.ambiguousTable table)
  | none =>
      match notJoined? [s.entity.table] s.distinctJoins with
      | some table => .error (.notJoined table)
      | none => .ok ()

/-- Whether the filter has a meaning without being read as text. -/
def isPlain (s : Select) : Bool := s.filter.all Expr.isPlain

/-- Rows without repetitions, if the statement asks for that. -/
def withoutRepeats (s : Select) (rows : List (List Scalar)) : List (List Scalar) :=
  if s.distinct then rows.eraseDups else rows

/-- The rows that a statement returns that is read from its text, given all its values. -/
def rowsByText (db : Database) (s : Select) (values : List Value) :
    Except RunError (List (List Scalar)) := do
  let text := s.template.heldText
  if text.contains '\x00' then throw .nullCharacter
  s.checkTables
  (← ReadQuery.ofText db text Reader.query).run db values

/-- The rows that a statement returns. -/
def run (db : Database) (s : Select) : Except RunError (List (List Scalar)) := do
  let values ← s.convertedValues
  if s.isPlain then
    s.checkTables
    let _ ← passAll values
    return s.withoutRepeats ((s.selected db).map s.cells)
  s.rowsByText db values

/-- The first cell of the primary key in a row that a statement returns. -/
def keyOf (s : Select) (cells : List Scalar) : Scalar :=
  match (s.entity.attributes.zip cells).find? (·.1.isKey) with
  | some entry => entry.2
  | none => .null

/-- The keys of the rows that a statement returns. -/
def runKeys (db : Database) (s : Select) : Except RunError (List Scalar) :=
  (List.map s.keyOf) <$> s.run db

end Select

end RowPolicy.Sql
