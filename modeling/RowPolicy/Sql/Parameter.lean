import RowPolicy.Sql.Affinity
import RowPolicy.Sql.Literal

/-!
# Parameters

A statement is run with a value for each of its parameters. The value is first
converted to the parameter's type where the type asks for that: a truth value has to be
zero or one, a double is read from a number or a numeral, a byte string has to be one.
Only scalars can then be passed, and integers only if a cell can hold them.
-/

namespace RowPolicy

/-- Why a value cannot be passed for a parameter. -/
inductive ParameterError where
  /-- The value cannot be converted to the type of the parameter. -/
  | unconvertible (type : ScalarType)
  /-- The value is no scalar. -/
  | notScalar
  /-- The integer is too large for a cell. -/
  | tooLarge (n : Int)
  deriving DecidableEq, Repr

namespace ScalarType

/-- A value converted to a type. -/
def convert? (type : ScalarType) (v : Value) : Option Value :=
  match type, v with
  | _, .null => some .null
  | truth, v => v.truth?.map fun b => .bool b
  | real, v => v.real?.map fun x => .float x
  | bytes, .bytes data => some (.bytes data)
  | bytes, _ => none
  | integer, v | text, v => some v

end ScalarType

namespace Value

/-- The cell that a value is stored as; what is not a number is missing, and so is
everything but a scalar. -/
def cell : Value → Scalar
  | float .nan => .null
  | .scalar s => s
  | _ => .null

/-- The cell that is passed for a converted value. -/
def pass : Value → Except ParameterError Scalar
  | int n => if Scalar.fits n then .ok (.int n) else .error (.tooLarge n)
  | .scalar s => .ok (cell (.scalar s))
  | _ => .error .notScalar

end Value

/-- The cell of a value that is passed for a parameter of a type; what cannot be
converted is missing. -/
def ScalarType.cell (type : ScalarType) (v : Value) : Scalar :=
  ((type.convert? v).getD .null).cell

end RowPolicy
