import Mathlib.Data.List.TakeWhile
import RowPolicy.Proofs.Path
import RowPolicy.Sample.Schema

/-!
# Schemas without ambiguous names

In a well-formed schema a reference names one column, a link compares columns of the two
tables that it relates, and a linking table is joined under a name that no entity's table
has.
-/

namespace RowPolicy

open Sql (Column)

namespace Link

/-- Whether a link compares columns of two tables, those of a linking table apart. -/
def IsBetween (source target : String) : Link → Prop
  | .direct left right =>
      (left.table = source ∨ left.table = target) ∧ (right.table = source ∨ right.table = target)
  | .through _ near _ goal _ => near.table = source ∧ goal.table = target

instance (source target : String) (link : Link) : Decidable (link.IsBetween source target) := by
  cases link <;> exact inferInstanceAs (Decidable (_ ∧ _))

/-- The linking table, if there is one. -/
def via? : Link → Option String
  | .direct _ _ => none
  | .through via _ _ _ _ => some via

end Link

namespace Schema

/-- Whether a linking table of the schema can be joined under a name. -/
def IsAlias (s : Schema) (name : String) : Prop :=
  ∃ e ∈ s.entities, ∃ r ∈ e.relationships, ∃ via number, r.link.via? = some via ∧
    name = Sql.Template.generatedName via number

/-- A schema in which names are unambiguous. -/
structure WellFormed (s : Schema) : Prop where
  /-- No table has a dot in its name, so a reference is split behind the table. -/
  table_plain : ∀ e ∈ s.entities, splitKey? e.table = none
  /-- A reference to an attribute names its column, whatever entities share the table. -/
  column_unique : ∀ e ∈ s.entities, ∀ a ∈ e.attributes,
    s.qualifiedColumn? e.table a.name = some (e.column a)
  link_between : ∀ e ∈ s.entities, ∀ r ∈ e.relationships, ∀ target ∈ s.entity? r.target,
    r.link.IsBetween e.table target.table
  alias_fresh : ∀ name, s.IsAlias name → ∀ e ∈ s.entities, name ≠ e.table

variable {s : Schema} {e : Entity} {name : String} {c : Column}

theorem WellFormed.not_isAlias (hs : s.WellFormed) (he : e ∈ s.entities) : ¬ s.IsAlias e.table :=
  fun halias => hs.alias_fresh _ halias e he rfl

/-- A reference to a column of an entity's table names a column of that table. -/
theorem qualifiedColumn?_table (he : e ∈ s.entities)
    (h : s.qualifiedColumn? e.table name = some c) : c.table = e.table := by
  have hcolumns : ∀ {other : Entity}, other.table = e.table → ∀ c ∈ other.columns,
      c.table = e.table := by
    intro other htable c hc
    obtain ⟨a, _, rfl⟩ := List.mem_map.mp hc
    exact htable
  unfold qualifiedColumn? at h
  dsimp only at h
  split at h
  next other hother =>
    have hfound := List.find?_some hother
    simp only [Bool.and_eq_true, beq_iff_eq] at hfound
    obtain ⟨a, ha, rfl⟩ := Option.map_eq_some_iff.mp h
    exact hfound.1
  next =>
    have hc := List.mem_of_find?_eq_some h
    unfold columnsOf at hc
    split at hc
    next other hother => exact hcolumns (by simpa using List.find?_some hother) c hc
    next hnone =>
      rw [List.find?_eq_none] at hnone
      exact (hnone e he (by simp)).elim

/-- An own attribute and a reference to it name the same column. -/
theorem WellFormed.qualifiedColumn?_of_attribute? (hs : s.WellFormed) (he : e ∈ s.entities)
    {a : Attribute} (ha : e.attribute? name = some a) :
    s.qualifiedColumn? e.table name = some (e.column a) := by
  obtain rfl : a.name = name := by simpa using List.find?_some ha
  exact hs.column_unique e he a (List.mem_of_find?_eq_some ha)

/-- A reference under a plain table name is split behind that name. -/
theorem splitKey?_qualifiedKey {table : String} (h : splitKey? table = none) :
    splitKey? (qualifiedKey table name) = some (table, name) := by
  have hplain : ∀ c ∈ table.toList, c ≠ '.' := by
    have hdrop : table.toList.dropWhile (· ≠ '.') = [] := by
      unfold splitKey? at h
      split at h
      next hdrop => exact hdrop
      next => cases h
    intro c hc
    simpa using List.dropWhile_eq_nil_iff.mp hdrop c hc
  have hlist : (qualifiedKey table name).toList = table.toList ++ '.' :: name.toList := by
    simp [qualifiedKey]
  have htake : (qualifiedKey table name).toList.takeWhile (· ≠ '.') = table.toList := by
    rw [hlist, List.takeWhile_append_of_pos (by simpa using hplain)]
    simp
  have hdrop : (qualifiedKey table name).toList.dropWhile (· ≠ '.') = '.' :: name.toList := by
    rw [hlist, List.dropWhile_append_of_pos (by simpa using hplain)]
    simp
  rw [splitKey?, hdrop, htake, String.ofList_toList]
  exact congrArg (fun rest => some (table, rest)) String.ofList_toList

end Schema

/-- The only linking table of the sample schema is that of posts and tags. -/
theorem Sample.prefix_of_isAlias {name : String} (h : Sample.schema.IsAlias name) :
    "post_tags_".toList <+: name.toList := by
  have hvia : ∀ e ∈ Sample.schema.entities, ∀ r ∈ e.relationships, ∀ via ∈ r.link.via?,
      via = "post_tags" := by decide +kernel
  obtain ⟨e, he, r, hr, via, number, hlink, rfl⟩ := h
  obtain rfl := hvia e he r hr via hlink
  rw [Sql.Template.generatedName, String.toList_append]
  exact List.prefix_append _ _

theorem Sample.wellFormed_schema : Sample.schema.WellFormed where
  table_plain := by decide +kernel
  column_unique := by decide +kernel
  link_between := by decide +kernel
  alias_fresh := by
    have hother : ∀ e ∈ Sample.schema.entities,
        ¬ "post_tags_".toList <+: e.table.toList := by decide +kernel
    rintro name halias e he rfl
    exact hother e he (Sample.prefix_of_isAlias halias)

end RowPolicy
