import RowPolicy.Proofs.Joining
import RowPolicy.Proofs.WellFormed

/-!
# The rows that joins combine

A joined row holds one row for each table joined so far. The joins of a statement combine
exactly the choices of rows that meet every join: each combination is such a choice, and
each such choice agrees with a combination on the tables joined.
-/

namespace RowPolicy

open Sql (Column Database Join JoinedRow Row)

namespace Sql.JoinedRow

/-- The row of a table; a table that is not joined has missing values only. -/
def rowOf (row : JoinedRow) (table : String) : Row := (Entries.get? table row).getD Row.missing

theorem cell_eq (row : JoinedRow) (c : Column) : row.cell c = row.rowOf c.table c.name := rfl

theorem get?_append (row more : JoinedRow) (table : String) :
    Entries.get? table (row ++ more) = (Entries.get? table row).or (Entries.get? table more) := by
  induction row with
  | nil => rfl
  | cons first rest ih =>
      by_cases hfirst : first.1 = table
      · simp [Entries.get?, hfirst]
      · simp [Entries.get?, hfirst, ih]

/-- Tables that are joined keep their rows. -/
theorem rowOf_append_left {row more : JoinedRow} {table : String} (h : table ∈ row.map Prod.fst) :
    rowOf (row ++ more) table = row.rowOf table := by
  cases hfound : Entries.get? table row with
  | none => exact (Entries.get?_eq_none.mp hfound h).elim
  | some r => simp [rowOf, get?_append, hfound]

theorem rowOf_append_right {row more : JoinedRow} {table : String} (h : table ∉ row.map Prod.fst) :
    rowOf (row ++ more) table = more.rowOf table := by
  rw [rowOf, get?_append, Entries.get?_eq_none.mpr h]
  rfl

/-- Whether a joined row has a row for each known table, and besides only rows of linking
tables. -/
structure Covers (s : Schema) (known : List String) (row : JoinedRow) : Prop where
  joined : ∀ table ∈ known, table ∈ row.map Prod.fst
  others : ∀ name ∈ row.map Prod.fst, name ∈ known ∨ s.IsAlias name

theorem covers_single (s : Schema) (table : String) (r : Row) :
    Covers s [table] [(table, r)] :=
  ⟨by simp, by simp⟩

theorem rowOf_single (table : String) (r : Row) : rowOf [(table, r)] table = r := by
  simp [rowOf, Entries.get?]

/-- Whether a joined row goes on from another one with a row of a table, where rows of
linking tables may stand in between. -/
def Continues (s : Schema) (row row' : JoinedRow) (table : String) (related : Row) : Prop :=
  ∃ between : JoinedRow, (∀ name ∈ between.map Prod.fst, s.IsAlias name) ∧
    row' = row ++ between ++ [(table, related)]

variable {s : Schema} {known : List String} {row row' : JoinedRow} {table : String}
  {related : Row}

/-- A joined row goes on with a row of a table right behind it. -/
theorem continues_append (s : Schema) (row : JoinedRow) (table : String) (related : Row) :
    row.Continues s (row ++ [(table, related)]) table related :=
  ⟨[], by simp, by simp⟩

theorem Continues.rowOf_known (h : row.Continues s row' table related)
    (hcovers : row.Covers s known) : ∀ t ∈ known, row'.rowOf t = row.rowOf t := by
  obtain ⟨between, _, rfl⟩ := h
  intro t ht
  rw [List.append_assoc, rowOf_append_left (hcovers.joined t ht)]

section Fresh

variable (halias : ¬ s.IsAlias table) (hfresh : table ∉ known)
include halias hfresh

theorem Covers.not_mem (hcovers : row.Covers s known) : table ∉ row.map Prod.fst := by
  intro hmem
  rcases hcovers.others _ hmem with hknown | hother
  · exact hfresh hknown
  · exact halias hother

theorem Continues.rowOf_target (h : row.Continues s row' table related)
    (hcovers : row.Covers s known) : row'.rowOf table = related := by
  obtain ⟨between, hbetween, rfl⟩ := h
  rw [rowOf_append_right]
  · simp [rowOf, Entries.get?]
  · rw [List.map_append, List.mem_append]
    rintro (hrow | hlink)
    · exact hcovers.not_mem halias hfresh hrow
    · exact halias (hbetween _ hlink)

end Fresh

theorem Continues.covers (h : row.Continues s row' table related)
    (hcovers : row.Covers s known) : row'.Covers s (table :: known) := by
  obtain ⟨between, hbetween, rfl⟩ := h
  constructor
  · intro t ht
    rcases List.mem_cons.mp ht with rfl | hknown
    · simp
    · simp only [List.map_append, List.mem_append]
      exact Or.inl (Or.inl (hcovers.joined t hknown))
  · intro name hname
    simp only [List.map_append, List.mem_append, List.map_cons, List.map_nil,
      List.mem_singleton] at hname
    rcases hname with (hrow | hlink) | rfl
    · exact (hcovers.others name hrow).imp_left (List.mem_cons_of_mem _)
    · exact Or.inr (hbetween name hlink)
    · exact Or.inl List.mem_cons_self

end Sql.JoinedRow

namespace Sql.Database

variable {s : Schema} {db : Database} {known : List String} {row row' : JoinedRow}
  {source target : Entity} {name : String} {r : Relationship} {number : Nat}

theorem mem_extend {table : String} : row' ∈ db.extend row table ↔
    ∃ related ∈ db.rows table, row' = row ++ [(table, related)] := by
  simp [extend, eq_comm (b := row')]

/-- The row of a linking table stands between those of the tables that it links. -/
theorem continues_through (row : JoinedRow) (number : Nat) (between related : Row)
    {via nearName far : String} {near goal : Column} (hlists : s.Lists source)
    (hresolves : s.Resolves source name r target)
    (hlink : r.link = .through via near nearName goal far) :
    row.Continues s (row ++ [(Template.generatedName via number, between)] ++
      [(target.table, related)]) target.table related := by
  refine ⟨_, fun n hn => ?_, rfl⟩
  obtain rfl := List.mem_singleton.mp hn
  exact ⟨source, hlists.mem, r, hresolves.mem, via, number, by rw [hlink]; rfl, rfl⟩

section JoinOne

variable (hs : s.WellFormed) (hresolves : s.Resolves source name r target)
  (hcovers : row.Covers s known) (hsource : source.table ∈ known) (hfresh : target.table ∉ known)
include hs hresolves hcovers hsource hfresh

/-- The cell of a column that a link compares is that of its table's row. -/
theorem cell_of_link {c : Column} (hc : c.table = source.table ∨ c.table = target.table)
    {related : Row} : JoinedRow.cell (row ++ [(target.table, related)]) c =
      Link.Relates.cellOf target.table (row.rowOf source.table) related c := by
  have hcontinues := JoinedRow.continues_append s row target.table related
  have hne : source.table ≠ target.table := fun heq => hfresh (heq ▸ hsource)
  rw [JoinedRow.cell_eq, Link.Relates.cellOf]
  rcases hc with hc | hc
  · rw [hc, if_neg hne, hcontinues.rowOf_known hcovers _ hsource]
  · rw [hc, if_pos rfl, hcontinues.rowOf_target (hs.not_isAlias hresolves.lists.mem) hfresh hcovers]

variable (hlists : s.Lists source)
include hlists

/-- A join goes on from a row with each related row. -/
theorem joinOne_sound (h : row' ∈ db.joinOne row (.related source r target, number)) :
    ∃ related ∈ db.rows target.table,
      r.link.Relates db target.table (row.rowOf source.table) related ∧
        row.Continues s row' target.table related := by
  have hbetween := hs.link_between source hlists.mem r hresolves.mem target hresolves.2
  change row' ∈ db.follow row target.table number r.link at h
  cases hlink : r.link with
  | direct left right =>
      rw [hlink] at h hbetween
      obtain ⟨hmem, htest⟩ := List.mem_filter.mp h
      obtain ⟨related, hrelated, rfl⟩ := mem_extend.mp hmem
      refine ⟨related, hrelated, ?_, JoinedRow.continues_append _ _ _ _⟩
      rwa [cell_of_link hs hresolves hcovers hsource hfresh hbetween.1,
        cell_of_link hs hresolves hcovers hsource hfresh hbetween.2] at htest
  | through via near nearName goal far =>
      rw [hlink] at h hbetween
      obtain ⟨between, hvia, h⟩ := List.mem_flatMap.mp h
      split at h
      next hnear =>
        obtain ⟨hmem, hfar⟩ := List.mem_filter.mp h
        obtain ⟨related, hrelated, rfl⟩ := mem_extend.mp hmem
        have hcontinues :=
          continues_through row number between related hlists hresolves hlink
        refine ⟨related, hrelated, ⟨between, hvia, ?_, ?_⟩, hcontinues⟩
        · rwa [JoinedRow.cell_eq, hbetween.1] at hnear
        · rwa [JoinedRow.cell_eq, hbetween.2,
            hcontinues.rowOf_target (hs.not_isAlias hresolves.lists.mem) hfresh hcovers] at hfar
      next => cases h

theorem joinOne_complete (number : Nat) {related : Row} (hrelated : related ∈ db.rows target.table)
    (h : r.link.Relates db target.table (row.rowOf source.table) related) :
    ∃ row' ∈ db.joinOne row (.related source r target, number),
      row.Continues s row' target.table related := by
  have hbetween := hs.link_between source hlists.mem r hresolves.mem target hresolves.2
  change ∃ row' ∈ db.follow row target.table number r.link, _
  cases hlink : r.link with
  | direct left right =>
      rw [hlink] at h hbetween
      refine ⟨row ++ [(target.table, related)], List.mem_filter.mpr
        ⟨mem_extend.mpr ⟨related, hrelated, rfl⟩, ?_⟩, JoinedRow.continues_append _ _ _ _⟩
      rwa [cell_of_link hs hresolves hcovers hsource hfresh hbetween.1,
        cell_of_link hs hresolves hcovers hsource hfresh hbetween.2]
  | through via near nearName goal far =>
      rw [hlink] at h hbetween
      obtain ⟨between, hvia, hnear, hfar⟩ := h
      have hcontinues := continues_through row number between related hlists hresolves hlink
      refine ⟨_, List.mem_flatMap.mpr ⟨between, hvia, ?_⟩, hcontinues⟩
      rw [if_pos (by rwa [JoinedRow.cell_eq, hbetween.1])]
      refine List.mem_filter.mpr ⟨mem_extend.mpr ⟨related, hrelated, rfl⟩, ?_⟩
      rwa [JoinedRow.cell_eq, hbetween.2,
        hcontinues.rowOf_target (hs.not_isAlias hresolves.lists.mem) hfresh hcovers]

end JoinOne

end Sql.Database

end RowPolicy
