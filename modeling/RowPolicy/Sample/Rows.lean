import RowPolicy.Sample.Schema
import RowPolicy.Sql.Execution

/-!
# Sample rows

The rows of the sample schema's tables. Articles, memberships and categories have none.
-/

namespace RowPolicy.Sample

open Sql

/-- A row that has the given cells in the given columns. -/
def row (columns : List String) (cells : List Scalar) : Row := fun name =>
  (Entries.get? name (columns.zip cells)).getD .null

/-- The rows of a table with the given columns, numbered from one on. -/
def rowsOf (columns : List Column) (cells : List (List Scalar)) : List Row :=
  cells.zipIdx.map fun (cells, n) =>
    row (Row.numberName :: columns.map Column.name) (.int (n + 1) :: cells)

def organizationRows : List (List Scalar) :=
  [[.int 1, .str "Acme Corp"],
    [.int 2, .str "Globex"]]

def userRows : List (List Scalar) :=
  [[.int 1, .str "Alice", .null, .bool false, .bool false, .int 1],
    [.int 2, .str "Bob", .int 1, .bool false, .bool true, .int 1],
    [.int 3, .str "Carol", .int 1, .bool true, .bool false, .null],
    [.int 4, .str "Dave", .int 2, .bool false, .bool false, .null],
    [.int 5, .str "eve_x", .int 5, .bool true, .bool true, .int 2]]

def postRows : List (List Scalar) :=
  [[.int 1, .str "Public Post", .bool true, .int 1],
    [.int 2, .str "Draft Post", .bool false, .int 1],
    [.int 3, .str "Bob's Post", .bool true, .int 2],
    [.int 4, .str "draft_2", .bool false, .int 5]]

def tagRows : List (List Scalar) :=
  [[.int 1, .str "python", .str "public"],
    [.int 2, .str "internal", .str "private"],
    [.int 3, .str "100%", .str "public"]]

def postTagRows : List (List Scalar) :=
  [[.int 1, .int 1], [.int 1, .int 3], [.int 2, .int 2], [.int 4, .int 1], [.int 4, .int 2]]

def commentRows : List (List Scalar) :=
  [[.int 1, .str "Nice", .bool true, .int 1],
    [.int 2, .str "Spam", .bool false, .int 2],
    [.int 3, .str "Agreed", .bool true, .int 3],
    [.int 4, .str "nice too", .bool true, .int 1]]

def activityRows : List (List Scalar) :=
  [[.int 1, .str "post.create", .str "Post", .int 1],
    [.int 2, .str "post.create", .str "Post", .int 2],
    [.int 3, .str "comment.create", .str "Comment", .int 1],
    [.int 4, .str "comment.create", .str "Comment", .int 2],
    [.int 5, .str "user.login", .str "User", .int 1],
    [.int 6, .str "user.login", .str "User", .int 2],
    [.int 7, .str "post.delete", .str "Post", .int 99]]

/-- The names of the table that lists all tables. -/
def catalogNames : List String := ["sqlite_master", "sqlite_schema"]

/-- The columns of the table that lists all tables. -/
def catalogColumns (name : String) : List Column :=
  [⟨name, "type", .text⟩, ⟨name, "name", .text⟩, ⟨name, "tbl_name", .text⟩,
    number name "rootpage", ⟨name, "sql", .text⟩]

/-- The statement that makes a table. -/
def definition (table : String) : String :=
  let columns := schema.columnsOf table
  let typeName : ScalarType → String
    | .integer => "INTEGER"
    | .truth => "BOOLEAN"
    | .real => "FLOAT"
    | .text => "VARCHAR"
    | .bytes => "BLOB"
  "CREATE TABLE " ++ table ++ " (\n\t" ++
    ", \n\t".intercalate (columns.map fun c => c.name ++ " " ++ typeName c.type) ++ "\n)"

/-- The rows of the table that lists all tables, and the indexes of those whose keys are no row
numbers. -/
def catalogRows : List (List Scalar) :=
  let tables := (schema.entities.map Entity.table ++ schema.tables.map Prod.fst).flatMap fun t =>
    let own : List Scalar := [.str "table", .str t, .str t]
    if (schema.rowNumber? t).isSome then [(own, Scalar.str (definition t))]
    else
      [(own, .str (definition t)),
        ([.str "index", .str ("sqlite_autoindex_" ++ t ++ "_1"), .str t], .null)]
  tables.zipIdx.map fun ((own, sql), n) => own ++ [.int (n + 2), sql]

/-- The columns of a table. -/
def columnsOf (table : String) : List Column :=
  if catalogNames.contains table then catalogColumns table else schema.columnsOf table

/-- The cells of a table, row by row. -/
def cellsOf (table : String) : List (List Scalar) :=
  match table with
  | "organizations" => organizationRows
  | "users" => userRows
  | "posts" => postRows
  | "tags" => tagRows
  | "post_tags" => postTagRows
  | "comments" => commentRows
  | "activities" => activityRows
  | table => if catalogNames.contains table then catalogRows else []

/-- The tables of the sample schema with their rows. -/
def database : Database where
  columns := columnsOf
  rowNumber? := schema.rowNumber?
  key table := (Entries.get? table schema.tables).getD []
  optional
    | "users" => ["manager_id", "org_id"]
    | "articles" => ["score", "owner_id"]
    | "memberships" => ["role"]
    | "categories" => ["parent_id"]
    | table => if catalogNames.contains table then catalogColumns table |>.map Column.name else []
  rows table := rowsOf (columnsOf table) (cellsOf table)

end RowPolicy.Sample
