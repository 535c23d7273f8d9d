import RowPolicy.Comparison.Test
import RowPolicy.Condition.Kind
import RowPolicy.Schema.Entity

/-!
# Values and expressions

Conditions compare columns with values. A value is a scalar, a collection, a mapping
or a comparison, but it can also be a part of a statement: a boolean expression, the
selection of an entity's rows, or a condition that was resolved before. Expressions in
turn hold the values that columns are compared with, so both are defined together.
-/

namespace RowPolicy

/-- The collections that a value may be. -/
inductive CollectionKind where
  | list
  | tuple
  | set
  | frozenSet
  deriving DecidableEq, Repr

/-- Whether a collection of this kind compares its elements without regard to order. -/
def CollectionKind.isSet : CollectionKind → Bool
  | list | tuple => false
  | set | frozenSet => true

/-- How two operands are compared in a statement. -/
inductive Sql.Relation where
  | eq
  | ne
  | lt
  | le
  | gt
  | ge
  deriving DecidableEq, Repr

mutual

/-- A value in a condition. -/
inductive Value where
  | scalar (s : Scalar)
  | collection (kind : CollectionKind) (items : List Value)
  | map (entries : List (String × Value))
  | comparison (test : Test) (operand : Value)
  /-- A condition on columns. -/
  | expr (e : Sql.Expr)
  /-- The rows of an entity, all of them or those for which a condition holds. -/
  | rows (entity : Entity) (filter : Option Sql.Expr)
  /-- A condition of a known kind. -/
  | resolved (kind : ConditionKind) (body : Value)

/-- What a column is compared with. -/
inductive Sql.Operand where
  | value (v : Value)
  /-- A truth value written into the statement. -/
  | truth (b : Bool)
  | column (c : Sql.Column)

/-- A boolean expression. -/
inductive Sql.Expr where
  /-- The constant `true` or `false`. -/
  | const (b : Bool)
  /-- What remains of a conjunction or disjunction that came out constant. -/
  | settled (b : Bool)
  /-- The constant that is neither `true` nor `false`. -/
  | unknown
  /-- A conjunction of nothing at all if `unit` is true, else such a disjunction. -/
  | blank (unit : Bool)
  /-- A condition given as text. -/
  | fragment (text : String)
  | nullTest (negated : Bool) (c : Sql.Column)
  | compare (r : Sql.Relation) (c : Sql.Column) (rhs : Sql.Operand)
  /-- A comparison with a text pattern, upper and lower case alike. -/
  | like (negated : Bool) (c : Sql.Column) (pattern : Value)
  | member (negated : Bool) (c : Sql.Column) (values : List Value)
  | isNotTrue (e : Sql.Expr)
  | and (l r : Sql.Expr)
  | or (l r : Sql.Expr)

end

instance : Inhabited Value := ⟨.scalar .null⟩
instance : Inhabited Sql.Expr := ⟨.const false⟩

namespace Value

@[match_pattern] abbrev null : Value := .scalar .null
@[match_pattern] abbrev bool (b : Bool) : Value := .scalar (.bool b)
@[match_pattern] abbrev int (n : Int) : Value := .scalar (.int n)
@[match_pattern] abbrev float (x : Binary64) : Value := .scalar (.float x)
@[match_pattern] abbrev str (s : String) : Value := .scalar (.str s)
@[match_pattern] abbrev bytes (data : List UInt8) : Value := .scalar (.bytes data)

/-- A list of texts. -/
def texts (ss : List String) : Value := .collection .list (ss.map str)

/-- The name of a value's type in messages. -/
def typeName : Value → String
  | null => "NoneType"
  | bool _ => "bool"
  | int _ => "int"
  | float _ => "float"
  | str _ => "str"
  | bytes _ => "bytes"
  | .collection .list _ => "list"
  | .collection .tuple _ => "tuple"
  | .collection .set _ => "set"
  | .collection .frozenSet _ => "frozenset"
  | .map _ => "dict"
  | .comparison _ _ => "Comparison"
  | .expr _ => "ColumnElement"
  | .rows _ _ => "Select"
  | .resolved kind _ => kind.typeName

/-- The type of a scalar value; other values have none. -/
def type? : Value → Option ScalarType
  | .scalar s => s.type?
  | _ => none

/-- The values found by going through a value element by element: the elements of a
collection, the characters of a text, the numbers of a byte string, the keys of a
mapping. Other values have no elements. -/
def elements? : Value → Option (List Value)
  | .collection _ items => some items
  | str s => some (s.toList.map fun c => str (String.singleton c))
  | bytes data => some (data.map fun b => int b.toNat)
  | .map entries => some (entries.map fun entry => str entry.1)
  | _ => none

/-- Whether a value may be looked up in a set or as a key. -/
def isKey : Value → Bool
  | .scalar _ | .expr _ | .rows _ _ => true
  | .collection .list _ | .collection .set _ | .map _ => false
  | .collection .tuple items | .collection .frozenSet items => areKeys items
  | .comparison _ operand => isKey operand
  | .resolved _ body => isKey body
where
  /-- Whether all of the values may be looked up in a set. -/
  areKeys : List Value → Bool
    | [] => true
    | item :: rest => isKey item && areKeys rest

/-- Whether a value is a part of a statement. -/
def isPart : Value → Bool
  | .expr _ | .rows _ _ => true
  | _ => false

/-- Whether a value is null. -/
def isNull : Value → Bool
  | null => true
  | _ => false

/-- Null and the truth values, given as values or as constant expressions. -/
def isConstant : Value → Bool
  | null | bool _ | .expr (.const _) => true
  | _ => false

/-- Whether a value is an expression other than a text. -/
def isExpression : Value → Bool
  | .expr (.fragment _) => false
  | .expr _ => true
  | _ => false

/-- Whether a value is there at all: neither null nor false, zero or empty. -/
def isPresent : Value → Bool
  | null => false
  | bool b => b
  | int n => n != 0
  | float (.finite _ mantissa _) => mantissa != 0
  | str s => s != ""
  | bytes data => !data.isEmpty
  | .collection _ items => !items.isEmpty
  | .map entries => !entries.isEmpty
  | _ => true

end Value

end RowPolicy
