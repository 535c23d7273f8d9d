import Mathlib.Data.List.Nodup
import RowPolicy.Proofs.Path
import RowPolicy.Sample.Rows

/-!
# Databases of a schema

A schema promises that no two rows of an entity agree in its primary key, and that a
relationship to one leads from each row to one row at most. In a database that keeps these
promises the rows of an entity differ in their cells. The related rows of a row can be listed,
so it can be decided whether a condition holds of it.
-/

namespace RowPolicy

open Sql (Database Row)

/-! ## Related rows as a list -/

/-- The rows of the table `target` to which a link leads from a row, each as often as it is
linked. -/
def Link.relatedRows (db : Database) (target : String) (row : Row) : Link → List Row
  | .direct left right => (db.rows target).filter fun related =>
      Database.linked (Relates.cellOf target row related left)
        (Relates.cellOf target row related right)
  | .through via source near goal far => (db.rows via).flatMap fun between =>
      if Database.linked (row source.name) (between near) then
        (db.rows target).filter fun related => Database.linked (related goal.name) (between far)
      else []

theorem Link.mem_relatedRows {db : Database} {target : String} {row related : Row} {link : Link} :
    related ∈ link.relatedRows db target row ↔
      related ∈ db.rows target ∧ link.Relates db target row related := by
  cases link with
  | direct left right => exact List.mem_filter
  | through via source near goal far =>
      rw [relatedRows, List.mem_flatMap]
      constructor
      · rintro ⟨between, hbetween, hmem⟩
        split at hmem
        next hnear =>
          obtain ⟨hstored, hfar⟩ := List.mem_filter.mp hmem
          exact ⟨hstored, between, hbetween, hnear, hfar⟩
        next => cases hmem
      · rintro ⟨hstored, between, hbetween, hnear, hfar⟩
        refine ⟨between, hbetween, ?_⟩
        rw [if_pos hnear]
        exact List.mem_filter.mpr ⟨hstored, hfar⟩

namespace Schema

variable {s : Schema} {db : Database} {e target : Entity} {name : String} {row related : Row}

/-- The rows to which an association of an entity leads from a row, with their entity. -/
def relatedRows (s : Schema) (db : Database) (e : Entity) (name : String) (row : Row) :
    List (Entity × Row) :=
  match e.relationship? name with
  | none => []
  | some r =>
      match s.entity? r.target with
      | none => []
      | some target => (r.link.relatedRows db target.table row).map fun related => (target, related)

theorem Resolves.relatedRows_eq {r : Relationship} (h : s.Resolves e name r target) :
    s.relatedRows db e name row =
      (r.link.relatedRows db target.table row).map fun related => (target, related) := by
  rw [relatedRows, h.1]
  dsimp only
  rw [h.2]

theorem mem_relatedRows :
    (target, related) ∈ s.relatedRows db e name row ↔ s.Related db e name row target related := by
  constructor
  · intro hmem
    cases hr : e.relationship? name with
    | none => simp [relatedRows, hr] at hmem
    | some r =>
        cases htarget : s.entity? r.target with
        | none => simp [relatedRows, hr, htarget] at hmem
        | some found =>
            rw [Resolves.relatedRows_eq ⟨hr, htarget⟩] at hmem
            obtain ⟨row', hrow', heq⟩ := List.mem_map.mp hmem
            obtain ⟨rfl, rfl⟩ := Prod.mk.inj heq
            exact ⟨r, ⟨hr, htarget⟩, Link.mem_relatedRows.mp hrow'⟩
  · rintro ⟨r, hresolves, hrelated⟩
    rw [hresolves.relatedRows_eq]
    exact List.mem_map_of_mem (Link.mem_relatedRows.mpr hrelated)

instance (s : Schema) (e : Entity) (entry : String × Value) (row : Row) :
    Decidable (s.LiteralHolds e entry row) :=
  decidable_of_iff (∃ c ∈ s.qualifiedColumn? e.table entry.1, ∃ leaf ∈ (entry.2.leaf c).toOption,
      leaf.eval (fun c => row c.name) = .yes) <| by
    refine exists_congr fun c => ?_
    rw [← exists_and_left]
    refine exists_congr fun leaf => and_congr_right fun _ => and_congr_left fun _ => ?_
    cases entry.2.leaf c <;> simp [Except.toOption]

end Schema

/-- Whether a condition holds of a row is decided by going through the related rows. -/
instance ConditionTree.decidableHoldsOf (s : Schema) (db : Database) :
    ∀ (tree : ConditionTree) (e : Entity) (row : Row), Decidable (tree.HoldsOf s db e row)
  | nil, _, _ => isTrue trivial
  | literal name value rest, e, row =>
      have := decidableHoldsOf s db rest e row
      inferInstanceAs (Decidable (s.LiteralHolds e (name, value) row ∧ rest.HoldsOf s db e row))
  | association name inner rest, e, row =>
      have := decidableHoldsOf s db rest e row
      -- the quantifiers over entities and rows are bounded by the list of related rows
      have := fun found : Entity × Row => decidableHoldsOf s db inner found.1 found.2
      decidable_of_iff ((∃ found ∈ s.relatedRows db e name row,
          inner.HoldsOf s db found.1 found.2) ∧ rest.HoldsOf s db e row) <| by
        refine and_congr_left fun _ => ?_
        simp only [Prod.exists, Schema.mem_relatedRows]

/-! ## What a schema promises -/

/-- The cells of a row in the columns of the primary key. -/
def Entity.keyCells (e : Entity) (row : Row) : List Scalar :=
  (e.attributes.filter (·.isKey)).map fun a => row a.column

/-- Rows with the same cells have the same primary key. -/
theorem Entity.keyCells_congr {e : Entity} {row row' : Row} (h : e.cells row = e.cells row') :
    e.keyCells row = e.keyCells row' := by
  have hcells : ∀ a ∈ e.attributes, row a.column = row' a.column := by
    intro a ha
    exact List.map_inj_left.mp h (e.column a) (List.mem_map_of_mem ha)
  exact List.map_congr_left fun a ha => hcells a (List.mem_filter.mp ha).1

namespace Sql.Database

variable {s : Schema} {db : Database}

/-- Whether a database keeps what a schema promises of its rows. -/
structure Conforms (db : Database) (s : Schema) : Prop where
  keys_differ : ∀ e ∈ s.entities, ((db.rows e.table).map e.keyCells).Nodup
  to_one : ∀ e ∈ s.entities, ∀ r ∈ e.relationships, r.toMany = false →
    ∀ row ∈ db.rows e.table, (s.relatedRows db e r.name row).length ≤ 1

/-- The rows of an entity differ in their cells. -/
theorem Conforms.nodup_cells (h : db.Conforms s) {e : Entity} (he : e ∈ s.entities) :
    ((db.rows e.table).map e.cells).Nodup := by
  have hkeys := List.pairwise_map.mp (h.keys_differ e he)
  refine List.pairwise_map.mpr (hkeys.imp fun hdiffer hcells => ?_)
  exact hdiffer (Entity.keyCells_congr hcells)

end Sql.Database

theorem Sample.conforms_database : Sample.database.Conforms Sample.schema where
  keys_differ := by decide +kernel
  to_one := by decide +kernel

end RowPolicy
