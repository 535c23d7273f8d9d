import RowPolicy.Scalar

/-!
# Columns

A column is known by its table and its name. Its type decides how values compared
with it are written and stored.
-/

namespace RowPolicy.Sql

/-- A column of a table. -/
structure Column where
  table : String
  name : String
  type : ScalarType
  deriving DecidableEq, Repr

/-- The text of a column. -/
def Column.text (c : Column) : String := c.table ++ "." ++ c.name

end RowPolicy.Sql
