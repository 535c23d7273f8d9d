import RowPolicy.Filter.Error
import RowPolicy.Sql.Expr

/-!
# Comparisons in statements

A comparison becomes a condition on a column. Comparison with null is a null test, and
truth values are written into the statement; every other operand is a parameter. A
quantified comparison combines the conditions for the elements of its operand.
-/

namespace RowPolicy

/-- Whether a value is a part of a statement that cannot be one of several values. -/
def Value.isWhole : Value → Bool
  | .rows _ _ | .expr (.fragment _) => true
  | _ => false

/-- The elements of an operand. -/
def Value.operands (v : Value) : Except FilterError (List Value) :=
  v.elements.mapError .fault

namespace Operator

/-- The test of a column for equality with a value. -/
def equality (negated : Bool) (c : Sql.Column) (v : Value) : Sql.Expr :=
  let relation := if negated then .ne else .eq
  match v with
  | .null => .nullTest negated c
  | .bool b | .expr (.const b) => .compare relation c (.truth b)
  | v => .compare relation c (.value v)

/-- A comparison of order; null and truth values have none. -/
def ordering (op : Operator) (r : Sql.Relation) (c : Sql.Column) (v : Value) :
    Except FilterError Sql.Expr :=
  if v.isConstant then .error (.unsuitable op) else .ok (.compare r c (.value v))

/-- A comparison with a pattern; null and truth values are none. -/
def pattern (op : Operator) (negated : Bool) (c : Sql.Column) (v : Value) :
    Except FilterError Sql.Expr :=
  if v.isConstant then .error (.unsuitable op) else .ok (.like negated c v)

/-- The condition that a column has one of the values. Beside an expression only values
that can be looked up as keys may stand. -/
def membership (op : Operator) (negated : Bool) (c : Sql.Column) (values : List Value) :
    Except FilterError Sql.Expr :=
  if values.any Value.isWhole then .error (.unsuitable op)
  else if values.any Value.isPart && !values.all Value.isKey then .error (.fault .notKey)
  else .ok (.member negated c values)

/-- The condition that a column stands in the operator's relation to a value. -/
def expr (op : Operator) (c : Sql.Column) (v : Value) : Except FilterError Sql.Expr :=
  match op with
  | eq => .ok (equality false c v)
  | notEq => .ok (equality true c v)
  | isIn => do op.membership false c (← v.operands)
  | notIn => do op.membership true c (← v.operands)
  | lt => op.ordering .lt c v
  | ltEq => op.ordering .le c v
  | gt => op.ordering .gt c v
  | gtEq => op.ordering .ge c v
  | like => op.pattern false c v
  | notLike => op.pattern true c v

end Operator

namespace Test

/-- The condition that a column passes the test with the given operand. -/
def expr (t : Test) (c : Sql.Column) (operand : Value) : Except FilterError Sql.Expr :=
  match t.quantifier with
  | .plain => t.operator.expr c operand
  | .any => do
      let parts ← (← operand.operands).mapM (t.operator.expr c)
      return .disjunction (.const false :: parts)
  | .all => do
      let parts ← (← operand.operands).mapM (t.operator.expr c)
      return .conjunction (.const true :: parts)

end Test

end RowPolicy
