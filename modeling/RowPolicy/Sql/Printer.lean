import RowPolicy.Sql.Expr
import RowPolicy.Sql.Fragment

/-!
# The text of expressions

Alternatives inside a conjunction stand in parentheses, a conjunction among
alternatives does not, and `IS NOT true` has its operand in parentheses unless that
is a constant. `NOT IN` is always in parentheses. Text fragments are copied as they
are, so they are never enclosed.
-/

namespace RowPolicy

namespace Sql

/-- The symbol of a relation. -/
def Relation.symbol : Relation → String
  | eq => "="
  | ne => "!="
  | lt => "<"
  | le => "<="
  | gt => ">"
  | ge => ">="

namespace Expr

/-- Whether an expression loses its extent when it stands beside `AND`. -/
def isDisjunction : Expr → Bool
  | or _ _ => true
  | _ => false

/-- Whether an expression keeps its extent as an operand. Fragments are taken to. -/
def isAtomic : Expr → Bool
  | const _ | settled _ | unknown | blank _ | fragment _ => true
  | _ => false

/-- Enclose an operand of `AND` if it is a disjunction. -/
def besideAnd (e : Expr) (template : Template) : Template :=
  if e.isDisjunction then template.parenthesized else template

/-- Enclose an operand of a comparison or of `IS NOT true` unless it is atomic. -/
def enclosed (e : Expr) (template : Template) : Template :=
  if e.isAtomic then template else template.parenthesized

end Expr

/-- The statement that selects all columns of an entity. Joins follow the first table,
then come further tables; a filter without text is left out. -/
def selectTemplate (distinct : Bool) (entity : Entity) (first : String) (joins : Template)
    (others : List String) (filter : Template) : Template :=
  .text ("SELECT " ++ (if distinct then "DISTINCT " else "")
      ++ Text.commaSeparated (entity.columns.map Column.text) ++ " \nFROM " ++ first)
    :: joins
    ++ others.map (fun t => .text (", " ++ t))
    ++ if filter.isEmpty then [] else .text " \nWHERE " :: filter

/-- Tables other than the known ones, each once, in order of occurrence. -/
def otherTables (known tables : List String) : List String :=
  (tables.filter fun t => !known.contains t).eraseDups

/-- The tables of a selection inside a statement: its own unless there are several, of
which those of the statement around it are left out. -/
def innerTables (around : List String) (own : String) (others : List String) : List String :=
  if others.isEmpty then [own] else (own :: others).filter fun t => !around.contains t

end Sql

mutual

/-- The template of an expression in a statement on the tables `around` it. -/
def Sql.Expr.template (around : List String) : Sql.Expr → Sql.Template
  | .const b | .settled b => [.truth b]
  | .unknown => [.text "NULL"]
  | .blank _ => []
  | .fragment text => Sql.Fragment.template text
  | .nullTest negated c => [.text (c.text ++ (if negated then " IS NOT NULL" else " IS NULL"))]
  | .compare r c rhs => .text (c.text ++ " " ++ r.symbol ++ " ") :: rhs.template around c
  | .like negated c pattern =>
      let relation := if negated then " NOT LIKE " else " LIKE "
      .text ("lower(" ++ c.text ++ ")" ++ relation ++ "lower(")
        :: pattern.template around c ++ [.text ")"]
  | .member negated c values =>
      let members : Sql.Template :=
        if values.any Value.isPart then
          Sql.Template.listed ((Value.itemTemplates around c values).filter (!·.isEmpty))
        else [.members c negated values]
      if negated then .text ("(" ++ c.text ++ " NOT IN (") :: members ++ [.text "))"]
      else .text (c.text ++ " IN (") :: members ++ [.text ")"]
  | .isNotTrue e => e.enclosed (e.template around) ++ [.text " IS NOT ", .truth true]
  | .and l r =>
      Sql.Template.separate " AND " (l.besideAnd (l.template around))
        (r.besideAnd (r.template around))
  | .or l r => Sql.Template.separate " OR " (l.template around) (r.template around)

/-- The template of what a column is compared with. -/
def Sql.Operand.template (around : List String) (c : Sql.Column) : Sql.Operand → Sql.Template
  | .value v => v.template around c
  | .truth b => [.truth b]
  | .column d => [.text d.text]

/-- The template of a value compared with a column. -/
def Value.template (around : List String) (c : Sql.Column) : Value → Sql.Template
  | .expr e => e.enclosed (e.template around)
  | .rows entity filter =>
      let others := Sql.otherTables [entity.table] (filter.elim [] (·.tables))
      match Sql.innerTables around entity.table others with
      | [] => [.sourceless]
      | first :: rest =>
          (Sql.selectTemplate false entity first [] rest
            (Value.filterTemplate (first :: rest) filter)).parenthesized
  | v => [.value c v]

/-- The template of a value among others that a column is compared with. -/
def Value.itemTemplate (around : List String) (c : Sql.Column) : Value → Sql.Template
  | .expr e => e.template around
  | v => [.value c v]

/-- The templates of some values that a column is compared with. -/
def Value.itemTemplates (around : List String) (c : Sql.Column) : List Value → List Sql.Template
  | [] => []
  | v :: rest => v.itemTemplate around c :: Value.itemTemplates around c rest

/-- The template of a filter that may be missing. -/
def Value.filterTemplate (around : List String) : Option Sql.Expr → Sql.Template
  | none => []
  | some e => e.template around

end

namespace Sql.Expr

/-- The text of an expression with literal values. -/
def literalText (e : Expr) : Except PrintError String := (e.template []).literalText

/-- The text and the parameters of an expression. -/
def bound (e : Expr) : Except PrintError Template.Bound := (e.template []).bound

end Sql.Expr

end RowPolicy
