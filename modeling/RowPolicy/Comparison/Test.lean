/-!
# Tests

A comparison relates a value to an operand by an operator, either to the operand
itself or to its elements. An operator with such a quantifier is a test, and every
test has a name of its own.
-/

namespace RowPolicy

/-- How a comparison relates a column to an operand. -/
inductive Operator where
  | eq
  | notEq
  | isIn
  | notIn
  | lt
  | ltEq
  | gt
  | gtEq
  | like
  | notLike
  deriving DecidableEq, Repr

namespace Operator

/-- All operators. -/
def all : List Operator := [eq, notEq, isIn, notIn, lt, ltEq, gt, gtEq, like, notLike]

theorem mem_all (op : Operator) : op ∈ all := by cases op <;> decide

/-- The name of an operator in a condition. -/
def name : Operator → String
  | eq => "eq"
  | notEq => "not_eq"
  | isIn => "in"
  | notIn => "not_in"
  | lt => "lt"
  | ltEq => "lteq"
  | gt => "gt"
  | gtEq => "gteq"
  | like => "matches"
  | notLike => "does_not_match"

end Operator

/-- Whether a comparison is made with the operand itself or with its elements. -/
inductive Quantifier where
  | plain
  | any
  | all
  deriving DecidableEq, Repr

namespace Quantifier

/-- The name of a quantifier; the plain one has none. -/
def name : Quantifier → String
  | plain => ""
  | any => "any"
  | all => "all"

/-- What a quantifier adds to the name of an operator. -/
def suffix : Quantifier → String
  | plain => ""
  | any => "_any"
  | all => "_all"

end Quantifier

/-- An operator with a quantifier. -/
structure Test where
  operator : Operator
  quantifier : Quantifier
  deriving DecidableEq, Repr

namespace Test

/-- The name of a test: the operator's name, followed by the quantifier's suffix. -/
def name (t : Test) : String := t.operator.name ++ t.quantifier.suffix

/-- All tests. -/
def all : List Test :=
  [Quantifier.plain, .any, .all].flatMap fun q => Operator.all.map fun op => ⟨op, q⟩

theorem mem_all (t : Test) : t ∈ all := by
  obtain ⟨op, q⟩ := t
  cases op <;> cases q <;> decide

/-- The test with the given name. -/
def ofName? (s : String) : Option Test := all.find? fun t => t.name == s

end Test

end RowPolicy
