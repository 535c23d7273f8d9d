import RowPolicy.Schema
import RowPolicy.Sql.Printer

/-!
# Select statements

A statement selects the columns of one entity. It joins related tables in order,
filters with at most one condition and may drop repeated rows. A table that only the
filter mentions stands beside the joined tables in `FROM`.
-/

namespace RowPolicy.Sql

/-- A join of a statement. -/
inductive Join where
  /-- Keep the rows that have a related row, once for each related row. -/
  | related (source : Entity) (relationship : Relationship) (target : Entity)
  /-- Keep every row, once for each matching row or else with missing values. -/
  | outer (subject : Entity) (on : Expr)

/-- The table that a join adds under its own name. -/
def Join.table : Join → String
  | related _ _ target => target.table
  | outer subject _ => subject.table

/-- The table that a join goes through on its way, if there is one. -/
def Join.via? : Join → Option String
  | related _ ⟨_, _, _, .through via _ _ _ _⟩ _ => some via
  | _ => none

/-- Whether two joins follow the same relationship from the same entity. -/
def Join.repeats : Join → Join → Bool
  | related s r _, related s' r' _ => s.name == s'.name && r.name == r'.name
  | _, _ => false

/-- A statement that selects rows of an entity. -/
structure Select where
  entity : Entity
  joins : List Join
  filter : Option Expr
  distinct : Bool

namespace Select

/-- All rows of an entity. -/
def ofEntity (e : Entity) : Select := ⟨e, [], none, false⟩

/-- Add a join at the end. -/
def join (s : Select) (j : Join) : Select := { s with joins := s.joins ++ [j] }

/-- The joins that are carried out: a relationship of an entity is followed once,
however often it is asked for. -/
def distinctJoins (s : Select) : List Join := s.joins.eraseDupsBy Join.repeats

/-- The joins that are carried out, each with the number that tells its linking table
from earlier ones of the same name. -/
def numberedJoins (s : Select) : List (Join × Nat) :=
  go [] s.distinctJoins
where
  /-- Number the remaining joins, given the linking tables used so far. -/
  go (used : List String) : List Join → List (Join × Nat)
    | [] => []
    | j :: rest =>
        match j.via? with
        | some via => (j, used.count via + 1) :: go (via :: used) rest
        | none => (j, 0) :: go used rest

/-- The tables that can be referred to by the joins: the entity's own and one for each
join carried out. -/
def joinedTables (s : Select) : List String :=
  s.entity.table :: s.distinctJoins.map Join.table

/-- The tables that only the filter mentions, in order of occurrence. -/
def extraTables (s : Select) : List String :=
  otherTables s.joinedTables (s.filter.elim [] (·.tables))

/-- The table that is joined directly to itself, if there is one: by a relationship of
an entity to itself, or by an outer join of the entity itself in first place. -/
def selfJoin? (s : Select) : Option String :=
  match s.joins with
  | .outer subject _ :: rest =>
      if subject.name == s.entity.name then some subject.table else related? rest
  | joins => related? joins
where
  /-- The first relationship of an entity to itself. -/
  related? : List Join → Option String
    | [] => none
    | .related source _ target :: rest =>
        if source.name == target.name then some target.table else related? rest
    | .outer _ _ :: rest => related? rest

/-- The template of a link to the table `target`. -/
def linkTemplate (target : String) : Link → Template
  | .direct left right => [.text (" JOIN " ++ target ++ " ON " ++ left.text ++ " = " ++ right.text)]
  | .through via source near goal far =>
      [.aliased via
        [" JOIN " ++ via ++ " AS ", " ON " ++ source.text ++ " = ",
          "." ++ near ++ " JOIN " ++ target ++ " ON " ++ goal.text ++ " = ", "." ++ far]]

/-- All tables of a statement. -/
def tables (s : Select) : List String := s.joinedTables ++ s.extraTables

/-- The template of a join. -/
def joinTemplate : Join → Template
  | .related _ relationship target => linkTemplate target.table relationship.link
  | .outer subject on =>
      .text (" LEFT OUTER JOIN " ++ subject.table ++ " ON ") :: on.template []

/-- The template of the filter. -/
def filterTemplate (s : Select) : Template := s.filter.elim [] (·.template s.tables)

/-- The template of a statement. -/
def template (s : Select) : Template :=
  selectTemplate s.distinct s.entity s.entity.table (s.distinctJoins.flatMap joinTemplate)
    s.extraTables s.filterTemplate

/-- Write a statement, unless it joins a table directly to itself. -/
def write {α : Type} (s : Select) (how : Template → Except PrintError α) :
    Except PrintError α :=
  match s.selfJoin? with
  | some table => .error (.selfJoin table)
  | none => how s.template

/-- The text of a statement with literal values. -/
def literalText (s : Select) : Except PrintError String := s.write Template.literalText

/-- The text and the parameters of a statement. -/
def bound (s : Select) : Except PrintError Template.Bound := s.write Template.bound

end Select

end RowPolicy.Sql
