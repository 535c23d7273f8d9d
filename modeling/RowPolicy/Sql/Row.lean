import RowPolicy.Sql.Column

/-!
# Rows

A database gives every table its columns and its rows, and some tables a column by which
the rows are numbered. The rows of other tables have a number of their own. A statement
goes through combinations of rows, one for each table that it mentions.
-/

namespace RowPolicy.Sql

/-- A row of a table: a cell for every column name. -/
abbrev Row := String → Scalar

/-- The row of missing values. -/
def Row.missing : Row := fun _ => .null

/-- The name under which a row has its number, if no column holds it. -/
def Row.numberName : String := "rowid"

/-- The tables with their columns and rows. -/
structure Database where
  /-- The columns of a table; what is no table has none. -/
  columns : String → List Column
  /-- The column by which the rows of a table are numbered. -/
  rowNumber? : String → Option Column
  /-- The columns of a table in whose order its rows are kept besides, if no two rows agree in
  them and there are no others. -/
  key : String → List Column
  /-- The names of the columns of a table whose values may be missing. -/
  optional : String → List String
  rows : String → List Row

/-- The cells of a row of a table, in which truth values are numbers, with the number of the row
at the end. -/
def Database.cellsOf (db : Database) (table : String) (row : Row) : List Scalar :=
  (db.columns table).map (fun c => (row c.name).plain)
    ++ [row ((db.rowNumber? table).elim Row.numberName Column.name)]

end RowPolicy.Sql
