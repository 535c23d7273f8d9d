import RowPolicy.Sql.Term.Parser

/-!
# Reading changes

A statement that changes rows is read as the query of the rows that it works on: those that it
deletes or updates, with the new values beside them, or those that it inserts. Definitions of
tables and commands are known by their first word only.
-/

namespace RowPolicy.Sql

namespace Reader

/-- The words with which changes of rows begin. -/
def changeWords : List String := ["DELETE", "UPDATE", "INSERT", "REPLACE"]

/-- The words with which definitions and commands begin. -/
def commandWords : List String :=
  ["ALTER", "ANALYZE", "ATTACH", "BEGIN", "CREATE", "DETACH", "DROP", "PRAGMA", "REINDEX",
    "RELEASE", "SAVEPOINT", "VACUUM"]

/-- The table whose rows are changed, and its name there. -/
def changed : Reader Source := do
  let first ← name
  let second ← if ← symbol? "." then some <$> name else pure none
  let label ← if ← keyword? "AS" then some <$> name else pure none
  match second with
  | some table => return .mk .inner (.table (some first) table none) label none []
  | none => return .mk .inner (.table none first none) label none []

/-- What is done if a row cannot be changed. -/
def conflict : Reader Unit := do
  if ← keyword? "OR" then
    if !(← sees ["ROLLBACK", "ABORT", "REPLACE", "FAIL", "IGNORE"]) then failure
    let _ ← next

/-- A column as it is named by itself. -/
def bareColumn (s : String) : Item := .term (.name none none s false) none ""

/-- The columns that get new values, with these. -/
def assignments (fuel : Nat) : Reader (List Item) := do
  match fuel with
  | 0 => failure
  | fuel + 1 =>
      let columns ←
        if ← symbol? "(" then
          let columns ← names fuel
          symbol ")"
          pure columns
        else pure [← name]
      symbol "="
      let value ← term fuel 0
      let values := match value with
        | .row values => values
        | value => [value]
      let here := columns.map bareColumn ++ values.map fun x => .term x none ""
      if ← symbol? "," then return here ++ (← assignments fuel) else return here

/-- A condition behind `WHERE`, if there is one. -/
def where? (fuel : Nat) : Reader (Option Term) := do
  if ← keyword? "WHERE" then some <$> term fuel 0 else return none

/-- What is returned of the rows that are changed, if anything is. -/
def returning (fuel : Nat) : Reader Unit := do
  if ← keyword? "RETURNING" then
    let _ ← items fuel

/-- A change of rows. -/
def change (fuel : Nat) : Reader Query := do
  let select (items : List Item) (sources : List Source) (condition : Option Term) : Selection :=
    .rows false items sources condition [] none []
  if ← keyword? "DELETE" then
    keyword "FROM"
    let source ← changed
    let condition ← where? fuel
    returning fuel
    return .ofSelection (select [.all] [source] condition)
  if ← keyword? "UPDATE" then
    conflict
    let source ← changed
    keyword "SET"
    let items ← assignments fuel
    let others ← if ← keyword? "FROM" then sources fuel .inner else pure []
    let condition ← where? fuel
    returning fuel
    return .ofSelection (select items (source :: others) condition)
  if !(← keyword? "REPLACE") then
    keyword "INSERT"
    conflict
  keyword "INTO"
  let source ← changed
  let columns ←
    if ← symbol? "(" then
      let columns ← names fuel
      symbol ")"
      pure columns
    else pure []
  let shown := if columns.isEmpty then [.all] else columns.map bareColumn
  let empty := select shown [source] (some (.literal (.int 0)))
  if ← keyword? "DEFAULT" then
    keyword "VALUES"
    returning fuel
    return .ofSelection (select [.all] [source] (some (.literal (.int 0))))
  let q ← query fuel
  returning fuel
  let inserted := select [.all] [.mk .inner (.query q) none none []] none
  return .mk [] empty [(.unionAll, inserted)] [] none none

end Reader

end RowPolicy.Sql
