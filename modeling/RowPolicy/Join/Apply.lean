import RowPolicy.Join.Tree
import RowPolicy.Sql.Select

/-!
# Joining along associations

A join list is applied to a statement name by name, each name at the entity to which
the names above it lead. A list that crosses an association to many rows repeats rows
of the entity selected.
-/

namespace RowPolicy.Schema

/-- The join along an association of an entity. -/
def joinAlong (s : Schema) (entity name : String) : Except SchemaError Sql.Join := do
  let relationship ← s.relationship entity name
  let source ← s.entity entity name
  let target ← s.entity relationship.target name
  return .related source relationship target

/-- Join a statement along all names of a list, starting at an entity. -/
def applyJoins (s : Schema) : JoinList → String → Sql.Select → Except SchemaError Sql.Select
  | .nil, _, statement => .ok statement
  | .name name rest, entity, statement => do
      s.applyJoins rest entity (statement.join (← s.joinAlong entity name))
  | .path name inner rest, entity, statement => do
      let statement := statement.join (← s.joinAlong entity name)
      let target ← s.target entity name
      s.applyJoins rest entity (← s.applyJoins inner target statement)

/-- Whether a list, starting at an entity, crosses an association to many rows. Names
after the first such association are not looked up. -/
def crossesMany (s : Schema) : JoinList → String → Except SchemaError Bool
  | .nil, _ => .ok false
  | .name name rest, entity => do
      if ← s.isToMany entity name then return true
      s.crossesMany rest entity
  | .path name inner rest, entity => do
      if ← s.isToMany entity name then return true
      let target ← s.target entity name
      if ← s.crossesMany inner target then return true
      s.crossesMany rest entity

end RowPolicy.Schema
