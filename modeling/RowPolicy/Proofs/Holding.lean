import RowPolicy.Proofs.Entry
import RowPolicy.Rule
import RowPolicy.Sql.Execution

/-!
# When a condition holds of a row

A condition holds of a row if every literal entry is true on the row and every association
leads to some row of which the nested condition holds. Each association may choose its row
anew. A choice of one row for every table settles the rows beforehand: a condition that
holds by a choice holds, while a condition may hold of a row and still not by a choice.
-/

namespace RowPolicy

open Sql (Column Database Row)

/-- The cells of a row of an entity, in the order in which they are selected. -/
def Entity.cells (e : Entity) (row : Row) : List Scalar := e.columns.map fun c => row c.name

/-- What every column holds in the rows chosen, one for every table. -/
def Sql.Assignment.ofRows (choice : String → Row) : Sql.Assignment := fun c =>
  choice c.table c.name

namespace Link

/-- Whether a link leads from a row to a row of the table `target`, another table. -/
def Relates (db : Database) (target : String) (row related : Row) : Link → Prop
  | .direct left right => Database.linked (cellOf left) (cellOf right) = true
  | .through via source near goal far => ∃ between ∈ db.rows via,
      Database.linked (row source.name) (between near) = true ∧
        Database.linked (related goal.name) (between far) = true
where
  /-- The cell of a column in the row of its table. -/
  cellOf (c : Column) : Scalar := if c.table = target then related c.name else row c.name

end Link

namespace Schema

/-- Whether a name stands for a relationship of an entity to another entity. -/
def Resolves (s : Schema) (e : Entity) (name : String) (r : Relationship) (target : Entity) :
    Prop :=
  e.relationship? name = some r ∧ s.entity? r.target = some target

/-- Whether an association of an entity leads from a row to a row of the entity `target`. -/
def Related (s : Schema) (db : Database) (e : Entity) (name : String) (row : Row)
    (target : Entity) (related : Row) : Prop :=
  ∃ r, s.Resolves e name r target ∧ related ∈ db.rows target.table ∧
    r.link.Relates db target.table row related

/-- Whether a literal entry is true on a row of an entity. -/
def LiteralHolds (s : Schema) (e : Entity) (entry : String × Value) (row : Row) : Prop :=
  ∃ c leaf, s.qualifiedColumn? e.table entry.1 = some c ∧ entry.2.leaf c = .ok leaf ∧
    leaf.eval (fun c => row c.name) = .yes

end Schema

namespace ConditionTree

variable {s : Schema} {db : Database} {choice : String → Row}

/-- Whether a condition holds of a row of an entity. -/
def HoldsOf (s : Schema) (db : Database) : ConditionTree → Entity → Row → Prop
  | nil, _, _ => True
  | literal name value rest, e, row =>
      s.LiteralHolds e (name, value) row ∧ rest.HoldsOf s db e row
  | association name inner rest, e, row =>
      (∃ target related, s.Related db e name row target related ∧
        inner.HoldsOf s db target related) ∧ rest.HoldsOf s db e row

/-- Whether a condition holds of the chosen row of an entity, all associations leading to
chosen rows. -/
def HoldsBy (s : Schema) (db : Database) (choice : String → Row) :
    ConditionTree → Entity → Prop
  | nil, _ => True
  | literal name value rest, e =>
      s.LiteralHolds e (name, value) (choice e.table) ∧ rest.HoldsBy s db choice e
  | association name inner rest, e =>
      (∃ target, s.Related db e name (choice e.table) target (choice target.table) ∧
        inner.HoldsBy s db choice target) ∧ rest.HoldsBy s db choice e

/-- What holds by a choice holds of the chosen row. -/
theorem HoldsBy.holdsOf {tree : ConditionTree} {e : Entity}
    (h : tree.HoldsBy s db choice e) : tree.HoldsOf s db e (choice e.table) := by
  induction tree generalizing e with
  | nil => trivial
  | literal name value rest ih => exact ⟨h.1, ih h.2⟩
  | association name inner rest ihInner ihRest =>
      obtain ⟨⟨target, hrelated, hinner⟩, hrest⟩ := h
      exact ⟨⟨target, _, hrelated, ihInner hinner⟩, ihRest hrest⟩

/-- Whether every association of a condition leads from each row stored to one row at most. -/
def IsSingle (s : Schema) (db : Database) : ConditionTree → Entity → Prop
  | nil, _ => True
  | literal _ _ rest, e => rest.IsSingle s db e
  | association name inner rest, e =>
      (∀ row ∈ db.rows e.table, ∀ target related target' related',
        s.Related db e name row target related → s.Related db e name row target' related' →
          related = related') ∧
      (∀ row ∈ db.rows e.table, ∀ target related, s.Related db e name row target related →
        inner.IsSingle s db target) ∧ rest.IsSingle s db e

/-- The names of the first level. -/
def names : ConditionTree → List String
  | nil => []
  | literal name _ rest | association name _ rest => name :: rest.names

/-- Whether a condition compares attributes with data only, at all depths: the names on each level
differ, no literal one names a table with its column, and no value holds a part of a statement. -/
def hasPlainKeysAndData : ConditionTree → Bool
  | nil => true
  | literal name value rest =>
      !rest.names.contains name && (splitKey? name).isNone && value.isData &&
        rest.hasPlainKeysAndData
  | association name inner rest =>
      !rest.names.contains name && inner.hasPlainKeysAndData && rest.hasPlainKeysAndData

end ConditionTree

namespace JoinTree

/-- Whether a choice leads along every association of a tree from chosen rows to chosen
rows. -/
def FollowedBy (s : Schema) (db : Database) (choice : String → Row) : JoinTree → Entity → Prop
  | nil, _ => True
  | node name inner rest, e =>
      (∃ target, s.Related db e name (choice e.table) target (choice target.table) ∧
        inner.FollowedBy s db choice target) ∧ rest.FollowedBy s db choice e

end JoinTree

namespace ConditionTree

variable {s : Schema} {db : Database} {choice : String → Row}

/-- A condition without a choice of related rows holds by every choice that follows it. -/
theorem IsSingle.holdsBy {tree : ConditionTree} {e : Entity} (hsingle : tree.IsSingle s db e)
    (hrow : choice e.table ∈ db.rows e.table)
    (hfollowed : tree.associations.FollowedBy s db choice e)
    (h : tree.HoldsOf s db e (choice e.table)) : tree.HoldsBy s db choice e := by
  induction tree generalizing e with
  | nil => trivial
  | literal name value rest ih => exact ⟨h.1, ih hsingle hrow hfollowed h.2⟩
  | association name inner rest ihInner ihRest =>
      obtain ⟨⟨target, related, hrelated, hinner⟩, hrest⟩ := h
      obtain ⟨honce, hbelow, hlater⟩ := hsingle
      obtain ⟨⟨target', hchosen, hfollowed⟩, hfollowedRest⟩ := hfollowed
      obtain rfl : target = target' := by
        obtain ⟨r, ⟨hr, htarget⟩, _⟩ := hrelated
        obtain ⟨r', ⟨hr', htarget'⟩, _⟩ := hchosen
        obtain rfl := Option.some.inj (hr.symm.trans hr')
        exact Option.some.inj (htarget.symm.trans htarget')
      obtain rfl := honce _ hrow _ _ _ _ hrelated hchosen
      obtain ⟨_, _, hstored, _⟩ := id hchosen
      exact ⟨⟨target, hchosen, ihInner (hbelow _ hrow _ _ hchosen) hstored hfollowed hinner⟩,
        ihRest hlater hrow hfollowedRest hrest⟩

end ConditionTree

namespace Condition

/-- Whether the condition of a rule holds of a row; only a mapping can. -/
def HoldsOf (s : Schema) (db : Database) (e : Entity) (row : Row) : Condition → Prop
  | mapping tree => tree.HoldsOf s db e row
  | fragment _ | scope _ => False

/-- Whether the condition of a rule holds of the chosen row. -/
def HoldsBy (s : Schema) (db : Database) (choice : String → Row) (e : Entity) :
    Condition → Prop
  | mapping tree => tree.HoldsBy s db choice e
  | fragment _ | scope _ => False

/-- Whether the associations of a rule's condition lead to one row at most. -/
def IsSingle (s : Schema) (db : Database) (e : Entity) : Condition → Prop
  | mapping tree => tree.IsSingle s db e
  | fragment _ | scope _ => True

variable {s : Schema} {db : Database} {e : Entity} {choice : String → Row}

theorem HoldsBy.holdsOf {c : Condition} (h : c.HoldsBy s db choice e) :
    c.HoldsOf s db e (choice e.table) := by
  cases c with
  | mapping tree => exact ConditionTree.HoldsBy.holdsOf h
  | fragment body => exact h
  | scope body => exact h

theorem IsSingle.holdsBy {c : Condition} (hsingle : c.IsSingle s db e)
    (hrow : choice e.table ∈ db.rows e.table)
    (hfollowed : c.associations.FollowedBy s db choice e)
    (h : c.HoldsOf s db e (choice e.table)) : c.HoldsBy s db choice e := by
  cases c with
  | mapping tree => exact ConditionTree.IsSingle.holdsBy hsingle hrow hfollowed h
  | fragment body => exact h
  | scope body => exact h

end Condition

/-- Whether the condition of a rule is a mapping that compares attributes with data only. -/
def Rule.HasPlainKeysAndData (rule : Rule) : Prop :=
  ∃ tree, rule.condition = .mapping tree ∧ tree.hasPlainKeysAndData = true

theorem Rule.HasPlainKeysAndData.isMergeable {rule : Rule} (h : rule.HasPlainKeysAndData) :
    rule.condition.isMergeable = true := by
  obtain ⟨tree, htree, _⟩ := h
  rw [htree]
  rfl

end RowPolicy
