import RowPolicy.Number.Shortest
import RowPolicy.Value.Conversion
import RowPolicy.Value.Printer

/-!
# Literals

A value compared with a column is written as a literal of a type: its own type or,
if it is no scalar, the type of the column. The values of a list are all written as
literals of one type, that of the first value. A value that cannot be read as one of
that type has no literal.
-/

namespace RowPolicy

namespace Sql

/-- A text as a string literal: quotes inside are doubled. -/
def stringLiteral (s : String) : String :=
  String.ofList ('\'' :: s.toList.flatMap (fun c => if c = '\'' then [c, c] else [c]) ++ ['\''])

/-- The text of a truth value. -/
def truthText (b : Bool) : String := if b then "true" else "false"

/-- The type of the parameter for a value compared with a column. -/
def Column.parameterType (c : Column) (v : Value) : ScalarType := v.type?.getD c.type

/-- The type of the parameters for a list of values compared with a column. -/
def Column.memberType (c : Column) (values : List Value) : ScalarType :=
  (values.head?.bind Value.type?).getD c.type

end Sql

/-- A value as a literal of a type. Byte strings are written as their text. -/
def ScalarType.literal? (type : ScalarType) (v : Value) : Option String :=
  match type, v with
  | _, .null => some "NULL"
  | integer, v => v.integer?.map toString
  | truth, v => v.truth?.map Sql.truthText
  | real, v => if v.isDecimal then some v.plainText else none
  | text, .str s => some (Sql.stringLiteral s)
  | bytes, .bytes data => (String.fromUTF8? ⟨data.toArray⟩).map Sql.stringLiteral
  | _, _ => none

end RowPolicy
