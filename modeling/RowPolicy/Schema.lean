import RowPolicy.Dict
import RowPolicy.Schema.Entity
import RowPolicy.Text.Quoted

/-!
# Schemas

A schema lists the entities that are stored in tables, the tables without an entity,
and the kinds above each entity and above other kinds. Names are looked up relative to an entity:
a bare key is an attribute of it, a key `table.name` an attribute of the entity stored
in that table or, failing that, a column of the table.
-/

namespace RowPolicy

/-- Entities, further tables, and the kinds above each kind. -/
structure Schema where
  entities : List Entity
  /-- Tables without an entity, with their columns. -/
  tables : List (String × List Sql.Column)
  /-- The kinds above each kind, all levels. -/
  ancestors : List (String × List String)

/-- Why a name could not be looked up; every constructor names the entity asked and
the key asked for. -/
inductive SchemaError where
  /-- The kind is not stored in a table. -/
  | unmapped (entity key : String)
  /-- The entity has no such association or column. -/
  | unknown (entity key : String)
  /-- The table of the entity is not listed. -/
  | unlisted (entity key : String)
  /-- A failure described in other words. -/
  | described (entity key message : String)
  deriving DecidableEq, Repr

namespace SchemaError

/-- The entity on which the look-up was made. -/
def entity : SchemaError → String
  | unmapped entity _ | unknown entity _ | unlisted entity _ | described entity _ _ => entity

/-- The key that was looked up. -/
def key : SchemaError → String
  | unmapped _ key | unknown _ key | unlisted _ key | described _ key _ => key

/-- The text for a key, as it is shown, that is no association or column. -/
def unknownText (entity shownKey : String) : String :=
  entity ++ " has no association or column named " ++ shownKey

/-- The text of the error. -/
def message : SchemaError → String
  | unmapped entity _ => entity ++ " is not a mapped class"
  | unknown entity key => unknownText entity (Text.quoted key)
  | unlisted entity _ => "No table is listed for " ++ entity
  | described _ _ message => message

end SchemaError

/-- Split a key at its first dot. -/
def splitKey? (key : String) : Option (String × String) :=
  match key.toList.dropWhile (· ≠ '.') with
  | [] => none
  | _ :: name => some (String.ofList (key.toList.takeWhile (· ≠ '.')), String.ofList name)

/-- A key that names a column of a table. -/
def qualifiedKey (table key : String) : String := table ++ "." ++ key

namespace Schema

/-- The entity with the given name, if that kind is stored in a table. -/
def entity? (s : Schema) (name : String) : Option Entity :=
  s.entities.find? fun e => e.name == name

/-- The entity with the given name, to look up `key` on it. -/
def entity (s : Schema) (name key : String) : Except SchemaError Entity :=
  match s.entity? name with
  | some e => .ok e
  | none => .error (.unmapped name key)

/-- The relationship `key` of an entity. -/
def relationship (s : Schema) (name key : String) : Except SchemaError Relationship := do
  match (← s.entity name key).relationship? key with
  | some r => return r
  | none => throw (.unknown name key)

/-- The name of the entity to which a relationship leads. -/
def target (s : Schema) (name key : String) : Except SchemaError String :=
  return (← s.relationship name key).target

/-- The table of an entity. -/
def table (s : Schema) (name : String) : Except SchemaError String :=
  return (← s.entity name "__table__").table

/-- The table of the entity to which a relationship leads. -/
def targetTable (s : Schema) (name key : String) : Except SchemaError String := do
  s.table (← s.target name key)

/-- Whether a relationship can lead to several rows. -/
def isToMany (s : Schema) (name key : String) : Except SchemaError Bool :=
  return (← s.relationship name key).toMany

/-- The first column of an entity's primary key. -/
def primaryKey (s : Schema) (name : String) : Except SchemaError Sql.Column := do
  let e ← s.entity name "id"
  match e.attributes.find? (·.isKey) with
  | some a => return e.column a
  | none => throw (.unknown name "id")

/-- The columns of a table, of one with an entity or of one without. -/
def columnsOf (s : Schema) (table : String) : List Sql.Column :=
  match s.entities.find? fun e => e.table == table with
  | some e => e.columns
  | none => (Entries.get? table s.tables).getD []

/-- The column by which the rows of a table are numbered: an integer that is the key of an
entity by itself. -/
def rowNumber? (s : Schema) (table : String) : Option Sql.Column := do
  let e ← s.entities.find? fun e => e.table == table
  match e.attributes.filter (·.isKey) with
  | [a] => if a.type = .integer then some (e.column a) else none
  | _ => none

/-- The column that a qualified key names. -/
def qualifiedColumn? (s : Schema) (table name : String) : Option Sql.Column :=
  let stored := s.entities.find? fun e => e.table == table && (e.attribute? name).isSome
  match stored with
  | some e => (e.attribute? name).map e.column
  | none => (s.columnsOf table).find? fun c => c.name == name

/-- The column that a key names on an entity. -/
def column (s : Schema) (name key : String) : Except SchemaError Sql.Column := do
  let e ← s.entity name key
  let found := match splitKey? key with
    | none => (e.attribute? key).map e.column
    | some (table, rest) => s.qualifiedColumn? table rest
  match found with
  | some c => return c
  | none => throw (.unknown name key)

/-- Whether one kind is another or below it. -/
def isBelow (s : Schema) (kind above : String) : Bool :=
  kind == above || ((Entries.get? kind s.ancestors).getD []).contains above

end Schema

end RowPolicy
