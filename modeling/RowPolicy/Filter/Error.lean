import RowPolicy.Schema
import RowPolicy.Value.Order

/-!
# Failures of building a filter

Building a filter fails if a name is unknown, if a value does not suit the operator it
is used with, or if the opposite of a text fragment is needed.
-/

namespace RowPolicy

/-- Why a condition on columns cannot be built. -/
inductive FilterError where
  /-- A name is unknown. -/
  | schema (e : SchemaError)
  /-- Null and truth values cannot be operands of the operator. -/
  | unsuitable (op : Operator)
  /-- The operand has no elements. -/
  | fault (f : Fault)
  /-- The value, of the given type, is no condition. -/
  | noFilter (typeName : String)
  /-- The opposite of a text fragment is needed. -/
  | fragmentNegated
  deriving DecidableEq, Repr

namespace FilterError

/-- The text of the error. -/
def message : FilterError → String
  | schema e => e.message
  | unsuitable op => "The " ++ op.name ++ " operator needs an operand with an order"
  | fault _ => "The operand has no elements"
  | noFilter typeName => "Cannot build a filter from " ++ typeName
  | fragmentNegated => "A text fragment cannot be negated"

end FilterError

/-- A result of the schema as part of building a condition. -/
def liftSchema {α : Type} : Except SchemaError α → Except FilterError α
  | .ok a => .ok a
  | .error e => .error (.schema e)

end RowPolicy
