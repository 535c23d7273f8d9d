import RowPolicy.Proofs.Integrity
import RowPolicy.Proofs.Running

/-!
# How often a row is returned

A join along a relationship to one goes on from a joined row once at most, so a statement with
such joins only has one combination for each row of its entity. Every other statement has to drop
repetitions in order to return each row once.
-/

namespace RowPolicy

open Sql (Column Database Join JoinStep JoinedRow Row Select)

/-- Whether a join follows a relationship to one. -/
def Sql.Join.IsToOne : Join → Prop
  | .related _ r _ => r.toMany = false
  | .outer _ _ => False

namespace Sql.Database

variable {s : Schema} {db : Database} {known : List String} {row : JoinedRow}
  {source target : Entity} {name : String} {r : Relationship}

/-- A join goes on from a joined row as often as there are related rows. -/
theorem length_joinOne (hs : s.WellFormed) (hresolves : s.Resolves source name r target)
    (hcovers : row.Covers s known) (hsource : source.table ∈ known)
    (hfresh : target.table ∉ known) (hlists : s.Lists source) (number : Nat) :
    (db.joinOne row (.related source r target, number)).length =
      (r.link.relatedRows db target.table (row.rowOf source.table)).length := by
  have hbetween := hs.link_between source hlists.mem r hresolves.mem target hresolves.2
  change (db.follow row target.table number r.link).length = _
  cases hlink : r.link with
  | direct left right =>
      rw [hlink] at hbetween
      rw [follow, extend, List.filter_map, List.length_map, Link.relatedRows]
      refine congrArg List.length (List.filter_congr fun related _ => ?_)
      dsimp only [Function.comp_def]
      rw [cell_of_link hs hresolves hcovers hsource hfresh hbetween.1,
        cell_of_link hs hresolves hcovers hsource hfresh hbetween.2]
  | through via near nearName goal far =>
      rw [hlink] at hbetween
      rw [follow, Link.relatedRows, List.length_flatMap, List.length_flatMap]
      refine congrArg List.sum (List.map_congr_left fun between _ => ?_)
      rw [JoinedRow.cell_eq, hbetween.1]
      split
      next =>
        simp only [extend, List.filter_map, List.length_map]
        refine congrArg List.length (List.filter_congr fun related _ => ?_)
        have hcontinues := continues_through row number between related hlists hresolves hlink
        dsimp only [Function.comp_def]
        rw [JoinedRow.cell_eq, hbetween.2,
          hcontinues.rowOf_target (hs.not_isAlias hresolves.lists.mem) hfresh hcovers]
      next => rfl

/-- A join puts rows behind a joined row. -/
theorem prefix_of_mem_joinOne {join : Join × Nat} {row' : JoinedRow}
    (h : row' ∈ db.joinOne row join) : row <+: row' := by
  have hextend : ∀ {before : JoinedRow} {table : String}, row' ∈ db.extend before table →
      before <+: row' := by
    intro before table hmem
    obtain ⟨r, _, rfl⟩ := mem_extend.mp hmem
    exact List.prefix_append _ _
  obtain ⟨join, number⟩ := join
  cases join with
  | outer subject on =>
      unfold joinOne at h
      dsimp only at h
      split at h
      next => exact List.mem_singleton.mp h ▸ List.prefix_append _ _
      next => exact hextend (List.mem_filter.mp h).1
  | related source r target =>
      change row' ∈ db.follow row target.table number r.link at h
      cases hlink : r.link with
      | direct left right =>
          rw [hlink] at h
          exact hextend (List.mem_filter.mp h).1
      | through via near nearName goal far =>
          rw [hlink] at h
          obtain ⟨between, _, hmem⟩ := List.mem_flatMap.mp h
          split at hmem
          next => exact (List.prefix_append _ _).trans (hextend (List.mem_filter.mp hmem).1)
          next => cases hmem

end Sql.Database

namespace Sql.JoinStep

variable {s : Schema} {db : Database} {known : List String}

/-- What steps put behind joined rows leaves these in front. -/
theorem prefix_of_mem_run {steps : List JoinStep} {rows : List JoinedRow} {row' : JoinedRow}
    (hsteps : ∀ step ∈ steps, ∀ row, ∀ next ∈ step.next row, row <+: next)
    (h : row' ∈ run steps rows) : ∃ row ∈ rows, row <+: row' := by
  induction steps generalizing rows with
  | nil => exact ⟨row', h, List.prefix_rfl⟩
  | cons step rest ih =>
      obtain ⟨hstep, hrest⟩ := List.forall_mem_cons.mp hsteps
      obtain ⟨next, hnext, hlater⟩ := ih hrest h
      obtain ⟨row, hrow, hnext⟩ := List.mem_flatMap.mp hnext
      exact ⟨row, hrow, (hstep row next hnext).trans hlater⟩

/-- Each row goes its own way through some steps. -/
theorem run_eq_flatMap (steps : List JoinStep) (rows : List JoinedRow) :
    run steps rows = rows.flatMap fun row => run steps [row] := by
  induction steps generalizing rows with
  | nil => simp [run]
  | cons step rest ih =>
      calc run (step :: rest) rows
          = run rest (rows.flatMap step.next) := rfl
        _ = (rows.flatMap step.next).flatMap fun next => run rest [next] := ih _
        _ = rows.flatMap fun row => (step.next row).flatMap fun next => run rest [next] :=
          List.flatMap_assoc
        _ = rows.flatMap fun row => run (step :: rest) [row] := by
          refine congrArg (List.flatMap · rows) (funext fun row => ?_)
          rw [← ih]
          simp [run]

/-- Steps lead to one row at most if the first of them does and the others do from there. -/
theorem length_run_cons_le_one {step : JoinStep} {rest : List JoinStep} {row : JoinedRow}
    (hstep : (step.next row).length ≤ 1)
    (hrest : ∀ next ∈ step.next row, (run rest [next]).length ≤ 1) :
    (run (step :: rest) [row]).length ≤ 1 := by
  have hrun : run (step :: rest) [row] = run rest (step.next row) := by simp [run]
  rw [hrun, run_eq_flatMap]
  match hnext : step.next row with
  | [] => simp
  | [next] => simpa using hrest next (by simp [hnext])
  | _ :: _ :: _ => simp [hnext] at hstep

/-- From a joined row with stored rows, joins along relationships to one lead to one row at
most. -/
theorem length_run_le_one (hs : s.WellFormed) (hdb : db.Conforms s) {joins : List (Join × Nat)}
    (hcan : s.CanJoinAll known (joins.map Prod.fst)) (hone : ∀ join ∈ joins, join.1.IsToOne)
    (hnodup : (known ++ joins.map fun join => join.1.table).Nodup) {row : JoinedRow}
    (hcovers : row.Covers s known) (hstored : ∀ t ∈ known, row.rowOf t ∈ db.rows t) :
    (run (joins.map (ofJoin db)) [row]).length ≤ 1 := by
  induction joins generalizing known row with
  | nil => exact Nat.le_refl 1
  | cons first rest ih =>
      obtain ⟨join, number⟩ := first
      obtain ⟨hjoin, hrest⟩ := hcan
      obtain ⟨hfirst, honeRest⟩ := List.forall_mem_cons.mp hone
      obtain ⟨hfresh, hnodup'⟩ := Join.fresh_of_nodup hnodup
      cases join with
      | outer subject on => exact hfirst.elim
      | related source r target =>
          have hfits : (ofJoin db (.related source r target, number)).Fits s known :=
            fits_related hs hjoin.1 hjoin.2 hfresh number
          obtain ⟨⟨_, name, _, _, heq, hlists, hresolves⟩, hsource⟩ := hjoin
          obtain ⟨rfl, rfl, rfl⟩ := Join.related.inj heq
          refine length_run_cons_le_one ?_ fun next hnext => ?_
          · have hrelated := hdb.to_one source hlists.mem r hresolves.mem hfirst _
              (hstored _ hsource)
            rw [hresolves.name_eq, hresolves.relatedRows_eq, List.length_map] at hrelated
            rwa [← Database.length_joinOne hs hresolves hcovers hsource hfresh hlists number]
              at hrelated
          · obtain ⟨⟨related, hcontinues⟩, hmet⟩ := hfits.sound row next hcovers hnext
            have hnextStored : ∀ t ∈ target.table :: known, next.rowOf t ∈ db.rows t := by
              refine List.forall_mem_cons.mpr ⟨hmet.1, fun t ht => ?_⟩
              rw [hcontinues.rowOf_known hcovers t ht]
              exact hstored t ht
            exact ih hrest honeRest hnodup' (hcontinues.covers hcovers) hnextStored

end Sql.JoinStep

namespace Sql.Select

variable {s : Select} {sch : Schema} {db : Database}

/-- Every combination that goes on from a row of the entity has the cells of that row. -/
theorem cells_of_mem_run {row : Row} {joined : JoinedRow}
    (h : joined ∈ JoinStep.run (s.steps db) [[(s.entity.table, row)]]) :
    s.cells joined = s.entity.cells row := by
  have hsteps : ∀ step ∈ s.steps db, ∀ row, ∀ next ∈ step.next row, row <+: next := by
    rw [steps, List.forall_mem_append, List.forall_mem_map, List.forall_mem_map]
    refine ⟨fun join _ row next hnext => Database.prefix_of_mem_joinOne hnext,
      fun table _ row next hnext => ?_⟩
    obtain ⟨r, _, rfl⟩ := Database.mem_extend.mp hnext
    exact List.prefix_append _ _
  obtain ⟨first, hfirst, more, rfl⟩ := JoinStep.prefix_of_mem_run hsteps h
  obtain rfl := List.mem_singleton.mp hfirst
  rw [cells_eq]
  simp [JoinedRow.rowOf, Entries.get?]

/-- Every combination has the cells of a row of the entity. -/
theorem cells_of_mem_combinations {joined : JoinedRow} (h : joined ∈ s.combinations db) :
    s.cells joined ∈ (db.rows s.entity.table).map s.entity.cells := by
  rw [combinations_eq, JoinStep.run_eq_flatMap, List.flatMap_map] at h
  obtain ⟨row, hrow, hjoined⟩ := List.mem_flatMap.mp h
  exact List.mem_map.mpr ⟨row, hrow, (cells_of_mem_run hjoined).symm⟩

/-- If the joins go on from each row of the entity once at most, the combinations have the cells
of some of these rows, each row once. -/
theorem cells_sublist (hone : ∀ row ∈ db.rows s.entity.table,
      (JoinStep.run (s.steps db) [[(s.entity.table, row)]]).length ≤ 1) :
    ((s.combinations db).map s.cells).Sublist
      ((db.rows s.entity.table).map s.entity.cells) := by
  rw [combinations_eq, JoinStep.run_eq_flatMap, List.flatMap_map, List.map_flatMap]
  generalize db.rows s.entity.table = rows at hone
  induction rows with
  | nil => exact List.Sublist.refl _
  | cons row rest ih =>
      obtain ⟨hrow, hrest⟩ := List.forall_mem_cons.mp hone
      rw [List.flatMap_cons, List.map_cons]
      match hrun : JoinStep.run (s.steps db) [[(s.entity.table, row)]] with
      | [] => exact (ih hrest).cons _
      | [joined] =>
          have hcells : s.cells joined = s.entity.cells row :=
            cells_of_mem_run (hrun ▸ List.mem_singleton_self joined)
          rw [List.map_singleton, hcells]
          exact (ih hrest).cons_cons _
      | _ :: _ :: _ => simp [hrun] at hrow

section Combinations

variable (hs : sch.WellFormed) (hcan : sch.CanJoinAll [s.entity.table] s.distinctJoins)
  (hextra : s.extraTables = []) (hnodup : s.tables.Nodup) (hdb : db.Conforms sch)
  (hone : ∀ join ∈ s.distinctJoins, join.IsToOne)
include hs hcan hextra hnodup hdb hone

/-- With joins along relationships to one there is no second combination. -/
theorem length_run_steps_le_one {row : Row} (hrow : row ∈ db.rows s.entity.table) :
    (JoinStep.run (s.steps db) [[(s.entity.table, row)]]).length ≤ 1 := by
  rw [steps, hextra, List.map_nil, List.append_nil]
  refine JoinStep.length_run_le_one hs hdb ?_ (fun join hjoin => ?_) ?_
    (JoinedRow.covers_single sch s.entity.table row) ?_
  · rwa [map_fst_numberedJoins]
  · refine hone join.1 ?_
    rw [← map_fst_numberedJoins]
    exact List.mem_map_of_mem hjoin
  · rw [← joinedTables_eq]
    exact (List.nodup_append.mp hnodup).1
  · intro t ht
    obtain rfl := List.mem_singleton.mp ht
    rwa [JoinedRow.rowOf_single]

/-- Then the combinations differ in the cells of the entity. -/
theorem nodup_combinations (hentity : s.entity ∈ sch.entities) :
    ((s.combinations db).map s.cells).Nodup :=
  (hdb.nodup_cells hentity).sublist (cells_sublist fun _ hrow =>
    length_run_steps_le_one hs hcan hextra hnodup hdb hone hrow)

end Combinations

theorem selected_sublist : (s.selected db).Sublist (s.combinations db) := by
  unfold selected
  split
  · exact List.Sublist.refl _
  · exact List.filter_sublist

section Returned

variable (hs : sch.WellFormed) (hdb : db.Conforms sch) (hentity : s.entity ∈ sch.entities)
  (hcan : sch.CanJoinAll [s.entity.table] s.distinctJoins)
  (hmany : ∀ join ∈ s.distinctJoins, ¬ join.IsToOne → s.distinct = true)
  (hextra : s.distinct = false → s.extraTables = []) (hnodup : s.tables.Nodup)
  {selected : List JoinedRow} (hselected : selected.Sublist (s.combinations db))
include hs hdb hentity hcan hmany hextra hnodup hselected

/-- Whichever combinations a statement selects, they yield no row of its entity twice if it drops
repetitions wherever a join follows a relationship to many or there are other tables. -/
theorem nodup_returned : (s.withoutRepeats (selected.map s.cells)).Nodup := by
  unfold withoutRepeats
  split
  next =>
    refine (Join.eraseDupsBy_spec _ _).2.imp fun hother heq => ?_
    simp [heq] at hother
  next hrepeats =>
    have hone : ∀ join ∈ s.distinctJoins, join.IsToOne := fun join hjoin =>
      not_not.mp fun h => hrepeats (hmany join hjoin h)
    have hcombinations := nodup_combinations hs hcan (hextra (by simpa using hrepeats)) hnodup hdb
      hone hentity
    exact hcombinations.sublist (hselected.map _)

/-- So what it returns are the cells of some rows of its entity, of each row once. -/
theorem exists_found : ∃ found : List Row, found.Sublist (db.rows s.entity.table) ∧
    (s.withoutRepeats (selected.map s.cells)).Perm (found.map s.entity.cells) := by
  have hcells := hdb.nodup_cells hentity
  refine ⟨(db.rows s.entity.table).filter fun row => s.entity.cells row ∈ selected.map s.cells,
    List.filter_sublist, ?_⟩
  refine (List.perm_ext_iff_of_nodup
    (nodup_returned hs hdb hentity hcan hmany hextra hnodup hselected)
    (hcells.sublist (List.filter_sublist.map _))).mpr fun cells => ?_
  rw [mem_withoutRepeats, List.mem_map, List.mem_map]
  constructor
  · rintro ⟨joined, hjoined, rfl⟩
    obtain ⟨row, hrow, heq⟩ :=
      List.mem_map.mp (cells_of_mem_combinations (hselected.subset hjoined))
    exact ⟨row, List.mem_filter.mpr ⟨hrow, by simpa [heq] using ⟨joined, hjoined, rfl⟩⟩, heq⟩
  · rintro ⟨row, hrow, rfl⟩
    simpa using (List.mem_filter.mp hrow).2

end Returned

end Sql.Select

end RowPolicy
