import RowPolicy.Filter

/-!
# Flattening

The literal entries of an association become entries of the filter under the table of
the associated entity, at every depth; entries of the first level keep their names or
are put under the entity's own table. Where two entries have the same reference the
later one counts. Every association name must resolve on the entity reached.
-/

namespace RowPolicy

/-- How the names in a condition are resolved. -/
structure Naming where
  /-- The entity to which an association leads. -/
  target : String → String → Except SchemaError String
  /-- The table of the entity to which an association leads. -/
  targetTable : String → String → Except SchemaError String
  /-- The table of an entity. -/
  table : String → Except SchemaError String

/-- The names of a schema. -/
def Schema.naming (s : Schema) : Naming := ⟨s.target, s.targetTable, s.table⟩

namespace Naming

/-- The names of listed associations, each with its target and the target's table, and
of listed tables; other associations are unknown. -/
def ofLists (associations : Dict (String × String) (String × String))
    (tables : Dict String String) : Naming where
  target entity name := (·.1) <$> find entity name
  targetTable entity name := (·.2) <$> find entity name
  table entity :=
    match tables.get? entity with
    | some table => .ok table
    | none => .error (.unlisted entity "__table__")
where
  /-- The target and its table of a listed association. -/
  find (entity name : String) : Except SchemaError (String × String) :=
    match associations.get? (entity, name) with
    | some found => .ok found
    | none => .error (.unknown entity name)

/-- Add what an association contributes: its literal entries under the table it leads
to, then what `below` makes of the entity it leads to. -/
def enter (n : Naming) (entity name : String) (literals : List (String × Value))
    (below : String → Except SchemaError (Dict String Value)) (acc : Dict String Value) :
    Except SchemaError (Dict String Value) := do
  let target ← n.target entity name
  let table ← n.targetTable entity name
  let acc := acc.insertAll (literals.map fun (key, value) => (qualifiedKey table key, value))
  return acc.update (← below target)

/-- Add what the associations of a condition contribute, but not its literal entries. -/
def nested (n : Naming) : ConditionTree → String → Dict String Value →
    Except SchemaError (Dict String Value)
  | .nil, _, acc => .ok acc
  | .literal _ _ rest, entity, acc => n.nested rest entity acc
  | .association name inner rest, entity, acc => do
      n.nested rest entity
        (← n.enter entity name inner.literals (fun target => n.nested inner target ∅) acc)

/-- The reference to an entity's own attribute, under its table if `qualify` holds. -/
def ownKey (n : Naming) (qualify : Bool) (entity name : String) : Except SchemaError String :=
  if qualify then return qualifiedKey (← n.table entity) name else .ok name

/-- Add what a condition on an entity contributes. -/
def flattenInto (n : Naming) (qualify : Bool) (entity : String) :
    ConditionTree → Dict String Value → Except SchemaError (Dict String Value)
  | .nil, acc => .ok acc
  | .literal name value rest, acc => do
      n.flattenInto qualify entity rest (acc.insert (← n.ownKey qualify entity name) value)
  | .association name inner rest, acc => do
      n.flattenInto qualify entity rest
        (← n.enter entity name inner.literals (fun target => n.nested inner target ∅) acc)

/-- The entries that a condition on an entity stands for. -/
def flatten (n : Naming) (qualify : Bool) (entity : String) (tree : ConditionTree) :
    Except SchemaError (Dict String Value) :=
  n.flattenInto qualify entity tree ∅

end Naming

/-- The filter of anything given for a condition; only mappings are changed. -/
def Value.toFilter (n : Naming) (qualify : Bool) (entity : String) :
    Value → Except SchemaError Filter
  | .map entries => .mapping <$> n.flatten qualify entity (.ofEntries entries)
  | v => .ok (.value v)

/-- The filter of a rule's condition on an entity. -/
def Condition.toFilter (n : Naming) (qualify : Bool) (entity : String) :
    Condition → Except SchemaError Filter
  | mapping tree => .mapping <$> n.flatten qualify entity tree
  | fragment body | scope body => body.toFilter n qualify entity

end RowPolicy
