import RowPolicy.Comparison.Pattern
import RowPolicy.Text.Quoted
import RowPolicy.Value.Order

/-!
# Comparisons in memory

A comparison tests a value with an operator and an operand. A quantified one tests
the value against the operand's elements one by one and stops at the first that
decides, so a later element cannot cause a fault any more.
-/

namespace RowPolicy

/-- Whether a value is a text described by the pattern; other values match nothing. -/
def Value.isLike (value pattern : Value) : Bool :=
  match value, pattern with
  | .str text, .str p => Pattern.covers p.toList text.toList
  | _, _ => false

/-- Whether `value` stands in the operator's relation to `operand`. -/
def Operator.check : Operator → Value → Value → Except Fault Bool
  | eq, value, operand => value.equals operand
  | notEq, value, operand => (value.equals operand).map (!·)
  | isIn, value, operand => value.elementOf operand
  | notIn, value, operand => (value.elementOf operand).map (!·)
  | lt, value, operand => value.compares .lt operand
  | ltEq, value, operand => value.compares .le operand
  | gt, value, operand => value.compares .gt operand
  | gtEq, value, operand => value.compares .ge operand
  | like, value, operand => .ok (value.isLike operand)
  | notLike, value, operand => .ok (!value.isLike operand)

namespace Test

/-- Whether `value` passes the test with the given operand. -/
def passes (t : Test) (operand value : Value) : Except Fault Bool :=
  match t.quantifier with
  | .plain => t.operator.check value operand
  | .any => do (← operand.elements).anyM fun element => t.operator.check value element
  | .all => do (← operand.elements).allM fun element => t.operator.check value element

end Test

/-- There is no test with the name given. -/
structure UnknownTest where
  name : String
  deriving DecidableEq, Repr

namespace UnknownTest

/-- The text for a name as it is shown. -/
def shownText (shown : String) : String :=
  "The " ++ shown ++ " comparison condition is not supported"

/-- The text of the error. -/
def message (e : UnknownTest) : String := shownText (Text.quoted e.name)

end UnknownTest

/-- The comparison with the named test. -/
def Value.comparisonOf (name : String) (operand : Value) : Except UnknownTest Value :=
  match Test.ofName? name with
  | some test => .ok (.comparison test operand)
  | none => .error ⟨name⟩

end RowPolicy
