import RowPolicy.Value

/-!
# Boolean expressions

The conditions of a `WHERE` clause and of joins. Conjunctions and disjunctions are
built by `conjunction` and `disjunction`, which settle constant parts at once. A
constant that is left over in this way is `settled`: it reads the same but is an
ordinary expression from then on, so it no longer takes part in simplification.
-/

namespace RowPolicy.Sql

namespace Expr

/-- The truth value of a bare constant. -/
def constant? : Expr → Option Bool
  | const b => some b
  | _ => none

/-- Whether an expression is blank and combines its parts like the constant `unit`. -/
def isBlank (unit : Bool) : Expr → Bool
  | blank u => u == unit
  | _ => false

/-- Several parts combined with `link`, of which blank ones of the same kind add nothing.
A single part that is left is still a combination, with something blank. -/
def linked (unit : Bool) (link : Expr → Expr → Expr) (parts : List Expr) : Expr :=
  match parts.filter fun e => !e.isBlank unit with
  | [] => blank unit
  | [only] => link only (blank unit)
  | first :: rest => rest.foldl link first

/-- Combine the parts with `link`. A constant other than `unit` settles the whole,
and the constant `unit` is dropped; if nothing else is there, it is the result. Without
any part the result is blank, and a single part is the result itself. -/
def combine (unit : Bool) (link : Expr → Expr → Expr) (parts : List Expr) : Expr :=
  if parts.isEmpty then blank unit
  else if parts.any fun e => e.constant? == some (!unit) then settled (!unit)
  else
    match parts.filter fun e => e.constant? != some unit with
    | [] => settled unit
    | [only] => only
    | several => linked unit link several

/-- The conjunction of the parts. -/
def conjunction (parts : List Expr) : Expr := combine true and parts

/-- The disjunction of the parts. -/
def disjunction (parts : List Expr) : Expr := combine false or parts

/-- The opposite of a condition, which is true also where the condition is unknown.
The opposite of a text fragment cannot be expressed, nor that of the unknown. -/
def negate? : Expr → Option Expr
  | const b => some (const !b)
  | fragment _ | unknown => none
  | e => some (isNotTrue e)

/-- Whether an expression consists of comparisons of columns with values only, with
nothing in it that is given as text, left blank or taken from another expression. -/
def isPlain : Expr → Bool
  | const _ | settled _ | unknown | nullTest _ _ => true
  | blank _ | fragment _ => false
  | compare _ _ (.value v) | like _ _ v => !v.isPart
  | compare _ _ _ => true
  | member _ _ values => !values.any Value.isPart
  | isNotTrue e => e.isPlain
  | and l r | or l r => l.isPlain && r.isPlain

end Expr

end RowPolicy.Sql

namespace RowPolicy

mutual

/-- The tables whose columns occur in an expression, in order of occurrence. -/
def Sql.Expr.tables : Sql.Expr → List String
  | .const _ | .settled _ | .unknown | .blank _ | .fragment _ => []
  | .nullTest _ c => [c.table]
  | .compare _ c rhs => c.table :: rhs.tables
  | .like _ c pattern => c.table :: pattern.tables
  | .member _ c values => c.table :: Value.tablesOfAll values
  | .isNotTrue e => e.tables
  | .and l r | .or l r => l.tables ++ r.tables

/-- The tables whose columns occur in an operand. -/
def Sql.Operand.tables : Sql.Operand → List String
  | .value v => v.tables
  | .truth _ => []
  | .column c => [c.table]

/-- The tables whose columns occur in a value. Selected rows come from tables of their
own, which do not count. -/
def Value.tables : Value → List String
  | .expr e => e.tables
  | _ => []

/-- The tables whose columns occur in some values. -/
def Value.tablesOfAll : List Value → List String
  | [] => []
  | v :: rest => v.tables ++ Value.tablesOfAll rest

end

end RowPolicy
