import RowPolicy.Number.Binary64

/-!
# Scalars

A scalar is what a cell of a table can hold. Columns and parameters have a type; a
missing value has none and suits every type.
-/

namespace RowPolicy

/-- What a cell of a table can hold. -/
inductive Scalar where
  | null
  | bool (b : Bool)
  | int (n : Int)
  | float (x : Binary64)
  | str (s : String)
  | bytes (data : List UInt8)
  deriving DecidableEq

instance : Inhabited Scalar := ⟨.null⟩

/-- The types of columns and parameters. -/
inductive ScalarType where
  | integer
  | truth
  | real
  | text
  | bytes
  deriving DecidableEq, Repr

/-- The type of a scalar; a missing value has none. -/
def Scalar.type? : Scalar → Option ScalarType
  | null => none
  | bool _ => some .truth
  | int _ => some .integer
  | float _ => some .real
  | str _ => some .text
  | bytes _ => some .bytes

/-- A cell with a number in place of a truth value. -/
def Scalar.plain : Scalar → Scalar
  | bool b => int (if b then 1 else 0)
  | cell => cell

end RowPolicy
