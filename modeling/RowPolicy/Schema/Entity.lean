import RowPolicy.Sql.Column

/-!
# Entities

An entity is stored in a table, one attribute to a column, and is related to other
entities. A relationship says which columns have to be equal for two rows to be
related, directly or through a linking table.
-/

namespace RowPolicy

/-- An attribute of an entity and the column that stores it. -/
structure Attribute where
  name : String
  column : String
  type : ScalarType
  isKey : Bool
  deriving DecidableEq, Repr

/-- How the tables of two related entities are joined, by a single column at each end. -/
inductive Link where
  /-- Rows are related if two columns are equal. -/
  | direct (left right : Sql.Column)
  /-- Rows are related if a row of the table `via` refers to both: its column `near`
  to the first entity, its column `far` to the second. -/
  | through (via : String) (source : Sql.Column) (near : String)
      (target : Sql.Column) (far : String)
  deriving DecidableEq, Repr

/-- A named relationship of an entity to a target entity. -/
structure Relationship where
  name : String
  target : String
  /-- Whether one row can be related to several. -/
  toMany : Bool
  link : Link
  deriving DecidableEq, Repr

/-- An entity and the table that stores it. -/
structure Entity where
  name : String
  table : String
  attributes : List Attribute
  relationships : List Relationship
  deriving DecidableEq, Repr

namespace Entity

/-- The column that stores an attribute. -/
def column (e : Entity) (a : Attribute) : Sql.Column := ⟨e.table, a.column, a.type⟩

/-- The attribute with the given name. -/
def attribute? (e : Entity) (name : String) : Option Attribute :=
  e.attributes.find? fun a => a.name == name

/-- The relationship with the given name. -/
def relationship? (e : Entity) (name : String) : Option Relationship :=
  e.relationships.find? fun r => r.name == name

/-- All columns, in the order in which rows are selected. -/
def columns (e : Entity) : List Sql.Column := e.attributes.map e.column

end Entity

end RowPolicy
