import RowPolicy.Proofs.CellEquality
import RowPolicy.Proofs.Denial
import RowPolicy.Proofs.Multiplicity

/-!
# How often a row of a proxy is returned

The statement for a proxy does not drop repetitions. It returns no row twice where each outer
join finds at most one row, that is where the subjects are known by the column that the join
compares. It compares the first column of a primary key, so a subject with a key of several
columns can be found several times for one row of the proxy.
-/

namespace RowPolicy

open Sql (Affinity Column Database Expr Join JoinStep JoinedRow Relation Row Select)

/-! ## Rows known by their keys -/

namespace Sql.Database

variable {s : Schema} {db : Database} {e : Entity}

/-- Whether the rows of each entity are told apart by their primary keys, as cells are compared:
no key is missing, and no two rows agree in theirs. -/
structure HasUniqueKeys (db : Database) (s : Schema) : Prop where
  keys_present : ∀ e ∈ s.entities, ∀ row ∈ db.rows e.table, ∀ a ∈ e.attributes.filter (·.isKey),
    linked (row a.column) (row a.column) = true
  keys_differ : ∀ e ∈ s.entities, (db.rows e.table).Pairwise fun row row' =>
    ∃ a ∈ e.attributes.filter (·.isKey), linked (row a.column) (row' a.column) = false

/-- Then the rows of an entity differ in their cells. -/
theorem HasUniqueKeys.nodup_cells (h : db.HasUniqueKeys s) (he : e ∈ s.entities) :
    ((db.rows e.table).map e.cells).Nodup := by
  refine List.pairwise_map.mpr ((h.keys_differ e he).imp_of_mem ?_)
  intro row row' hrow _ ⟨a, ha, hdiffer⟩ hcells
  have hcell : row a.column = row' a.column :=
    List.map_inj_left.mp (Entity.keyCells_congr hcells) a ha
  rw [← hcell, h.keys_present e he row hrow a ha] at hdiffer
  cases hdiffer

/-- Beside a column of the same affinity, cells are compared as they are. -/
theorem test_eq_linked (f : Affinity) (a b : Scalar) :
    (Relation.eq.test f a f b == .yes) = linked a b := by
  have hadapt : ∀ cell : Scalar, Affinity.adapt f f cell = cell := by
    intro cell
    cases f <;> rfl
  unfold linked Relation.test Affinity.order?
  rw [hadapt, hadapt]
  rfl

end Sql.Database

/-- What at most one member of a list can satisfy is left once at most. -/
theorem Outcome.length_filter_le_one {α : Type} {p : α → Bool} {as : List α}
    (h : as.Pairwise fun a b => ¬ (p a = true ∧ p b = true)) : (as.filter p).length ≤ 1 := by
  match hfound : as.filter p with
  | [] => simp
  | [_] => simp
  | a :: b :: rest =>
      have hboth : ∀ c ∈ a :: b :: rest, p c = true := by
        intro c hc
        rw [← hfound] at hc
        exact (List.mem_filter.mp hc).2
      have hpairwise := h.filter p
      rw [hfound, List.pairwise_cons] at hpairwise
      exact (hpairwise.1 b (by simp) ⟨hboth a (by simp), hboth b (by simp)⟩).elim

/-! ## Outer joins that find one row -/

/-- Whether a kind is known by a single column, which compares like the given one. -/
def Schema.IsKeyedLike (s : Schema) (name : String) (c : Column) : Prop :=
  ∀ e ∈ s.entity? name, ∃ a, e.attributes.filter (·.isKey) = [a] ∧
    (e.column a).affinity = c.affinity

/-- Whether a join looks up the single key of a subject that a column of the root holds. -/
def Sql.Join.LooksUpKey (s : Schema) (root : String) : Join → Prop
  | .related _ _ _ => False
  | .outer subject on => subject ∈ s.entities ∧ ∃ other c a,
      on = .and other (.compare .eq c (.column (subject.column a))) ∧ c.table = root ∧
        subject.attributes.filter (·.isKey) = [a] ∧ (subject.column a).affinity = c.affinity

namespace Sql.JoinStep

variable {s : Schema} {db : Database} {known : List String} {row : JoinedRow} {root : String}

/-- The row that such a join finds has the key that the row of the root holds. -/
theorem linked_of_holds (hs : s.WellFormed) {subject : Entity} (hsubject : subject ∈ s.entities)
    {other : Expr} {c : Column} {a : Attribute} {related : Row}
    (haffinity : (subject.column a).affinity = c.affinity) (hc : c.table ∈ known)
    (hfresh : subject.table ∉ known) (hcovers : row.Covers s known)
    (hholds : Database.holds (.and other (.compare .eq c (.column (subject.column a))))
      (row ++ [(subject.table, related)]) = true) :
    Database.linked (row.cell c) (related a.column) = true := by
  have hcontinues := JoinedRow.continues_append s row subject.table related
  have hleft : JoinedRow.cell (row ++ [(subject.table, related)]) c = row.cell c := by
    rw [JoinedRow.cell_eq, hcontinues.rowOf_known hcovers _ hc, JoinedRow.cell_eq]
  have hright : JoinedRow.cell (row ++ [(subject.table, related)]) (subject.column a) =
      related a.column := by
    rw [JoinedRow.cell_eq]
    change JoinedRow.rowOf _ subject.table a.column = _
    rw [hcontinues.rowOf_target (hs.not_isAlias hsubject) hfresh hcovers]
  rw [Database.holds, beq_iff_eq, Expr.eval, Truth.and_eq_yes] at hholds
  rw [← Database.test_eq_linked c.affinity, beq_iff_eq, ← hleft, ← hright]
  simpa only [Expr.eval, haffinity] using hholds.2

/-- Outer joins that look up keys of their own go on from a joined row once at most. -/
theorem length_run_outer_le_one (hs : s.WellFormed) (hdb : db.HasUniqueKeys s)
    {joins : List (Join × Nat)} (hkeys : ∀ join ∈ joins, join.1.LooksUpKey s root)
    (hcan : s.CanJoinAll known (joins.map Prod.fst)) (hroot : root ∈ known)
    (hnodup : (known ++ joins.map fun join => join.1.table).Nodup)
    (hcovers : row.Covers s known) :
    (run (joins.map (ofJoin db)) [row]).length ≤ 1 := by
  induction joins generalizing known row with
  | nil => exact Nat.le_refl 1
  | cons first rest ih =>
      obtain ⟨join, number⟩ := first
      obtain ⟨hjoin, hrest⟩ := hcan
      obtain ⟨hfirst, hkeysRest⟩ := List.forall_mem_cons.mp hkeys
      obtain ⟨hfresh, hnodup'⟩ := Join.fresh_of_nodup hnodup
      cases join with
      | related source r target => exact hfirst.elim
      | outer subject on =>
          refine length_run_cons_le_one ?_ fun next hnext => ?_
          · obtain ⟨hsubject, other, c, a, rfl, rfl, hkey, haffinity⟩ := hfirst
            -- two rows found would both have the key that the row of the root holds
            have hone : ((db.extend row subject.table).filter (Database.holds
                (.and other (.compare .eq c (.column (subject.column a)))))).length ≤ 1 := by
              refine Outcome.length_filter_le_one (List.pairwise_map.mpr ?_)
              refine (hdb.keys_differ subject hsubject).imp ?_
              rintro related related' hdiffer ⟨hholds, hholds'⟩
              have hlinked := Database.linked_of_linked
                (linked_of_holds hs hsubject haffinity hroot hfresh hcovers hholds)
                (linked_of_holds hs hsubject haffinity hroot hfresh hcovers hholds')
              simp [hkey, hlinked] at hdiffer
            change (db.joinOne row (.outer subject _, number)).length ≤ 1
            unfold Database.joinOne
            dsimp only
            split
            next => exact Nat.le_refl 1
            next => exact hone
          · obtain ⟨⟨related, hcontinues⟩, _⟩ :=
              (fits_outer hs hjoin.1 hjoin.2 hfresh number).sound row next hcovers hnext
            exact ih hkeysRest hrest (List.mem_cons_of_mem _ hroot) hnodup'
              (hcontinues.covers hcovers)

end Sql.JoinStep

/-! ## The statement for a proxy -/

namespace Query

variable {q : Query} {s : Select} {p : Expr} {field : ProxyField} {db : Database}

/-- Whether the subject of a rule is known by a single column, which compares like the column in
which the proxy holds keys. -/
def HasSingleKey (q : Query) (field : ProxyField) (rule : Rule) : Prop :=
  ∀ name c, q.proxySubject rule = .ok name →
    q.schema.column q.entity field.idColumn = .ok c → q.schema.IsKeyedLike name c

section Proxied

variable (hproxy : q.proxy? = some field) (hfield : splitKey? field.idColumn = none)
  (hkeys : ∀ rule ∈ q.rules, q.HasSingleKey field rule)
include hproxy hfield hkeys

/-- Every join of a proxy looks up the key that the proxy holds. -/
theorem IsProxied.looksUpKey (h : q.IsProxied s p) :
    ∀ join ∈ s.joins, join.LooksUpKey q.schema s.entity.table := by
  intro join hjoin
  obtain ⟨rule, hrule, field', typeColumn, c, name, hproxy', _, hc, hname, hjoin⟩ :=
    (h.mem_joins join).mp hjoin
  obtain rfl := Option.some.inj (hproxy.symm.trans hproxy')
  obtain ⟨subject, a, hsubject, ha, rfl⟩ := subjectJoin_eq_ok hjoin
  obtain ⟨key, hkey, haffinity⟩ := hkeys rule hrule name c hname hc subject hsubject
  obtain rfl : a = key := by
    rw [← List.head?_filter, hkey] at ha
    exact (Option.some.inj ha).symm
  refine ⟨(Schema.lists_of_entity? hsubject).mem, _, c, a, rfl, ?_, hkey, haffinity⟩
  obtain ⟨e, hentity, hfound⟩ := Schema.column_eq_ok.mp hc
  obtain rfl := Option.some.inj (h.entity_eq.symm.trans hentity)
  rw [hfield] at hfound
  obtain ⟨_, _, rfl⟩ := Option.map_eq_some_iff.mp hfound
  rfl

/-- What the statement for a proxy returns are the cells of some of its rows, each row once. -/
theorem IsProxied.sublist_returned (hs : q.schema.WellFormed) (h : q.IsProxied s p)
    (hdata : ∀ rule ∈ q.rules, rule.ComparesData) (hdb : db.HasUniqueKeys q.schema)
    {rows : List (List Scalar)} (hrun : s.run db = .ok rows) :
    rows.Sublist ((db.rows s.entity.table).map s.entity.cells) := by
  obtain ⟨hcombines, hextra⟩ :=
    h.combines hs ((h.filter_keepsTo hs.table_plain).isPlain hdata) hrun
  obtain ⟨values, hpassed⟩ := Select.exists_passed hrun
  have hnodup := (Select.tables_of_passed hpassed).1
  have hrows : rows = (s.selected db).map s.cells := by
    rw [hcombines.run_eq, hpassed] at hrun
    simpa [Select.withoutRepeats, h.distinct_eq] using (Except.ok.inj hrun).symm
  rw [hrows]
  refine (Select.selected_sublist.map _).trans (Select.cells_sublist fun row _ => ?_)
  rw [Select.steps, hextra, List.map_nil, List.append_nil]
  refine JoinStep.length_run_outer_le_one hs hdb (fun join hjoin => ?_) ?_ List.mem_cons_self ?_
    (JoinedRow.covers_single q.schema s.entity.table row)
  · refine h.looksUpKey hproxy hfield hkeys join.1 ?_
    rw [← h.distinctJoins_eq, ← Select.map_fst_numberedJoins]
    exact List.mem_map_of_mem hjoin
  · rw [Select.map_fst_numberedJoins]
    exact hcombines.canJoinAll
  · rw [← Select.joinedTables_eq]
    exact (List.nodup_append.mp hnodup).1

/-- The statement for rules on a proxy whose conditions are mappings to data returns no row of it
twice, if the subject of each rule is known by a single column. -/
theorem proxy_rows_once (hs : q.schema.WellFormed)
    (hrules : ∀ rule ∈ q.rules, rule.condition.isMergeable = true)
    (hdata : ∀ rule ∈ q.rules, rule.ComparesData) {records : Records}
    (hrecords : q.records = .ok records) :
    ∃ s, records.statement = .select s ∧ q.schema.entity? q.entity = some s.entity ∧
      ∀ db : Database, db.HasUniqueKeys q.schema → ∀ rows, s.run db = .ok rows →
        rows.Sublist ((db.rows s.entity.table).map s.entity.cells) ∧ rows.Nodup := by
  suffices hsublist : ∃ s, records.statement = .select s ∧
      q.schema.entity? q.entity = some s.entity ∧ ∀ db : Database, db.HasUniqueKeys q.schema →
        ∀ rows, s.run db = .ok rows →
          rows.Sublist ((db.rows s.entity.table).map s.entity.cells) by
    obtain ⟨s, hstatement, hentity, hsublist⟩ := hsublist
    refine ⟨s, hstatement, hentity, fun db hdb rows hrun => ?_⟩
    have hrows := hsublist db hdb rows hrun
    exact ⟨hrows, (hdb.nodup_cells (Schema.lists_of_entity? hentity).mem).sublist hrows⟩
  by_cases hne : q.rules = []
  · obtain ⟨e, hentity, hstatement⟩ := exists_emptyStatement hne hrecords
    refine ⟨_, hstatement, hentity, fun db _ rows hrun => ?_⟩
    rw [Select.run_of_isPlain rfl, Outcome.map_eq_ok] at hrun
    obtain ⟨_, _, rfl⟩ := hrun
    have hselected : Select.selected db { Select.ofEntity e with filter := some (.const false) } =
        [] := by
      unfold Select.selected
      exact List.filter_eq_nil_iff.mpr fun _ _ => by
        simp [Database.holds, Expr.eval, Sql.Truth.ofBool]
    rw [hselected]
    exact List.nil_sublist _
  · obtain ⟨s, p, hstatement, h⟩ :=
      exists_proxyStatement hproxy hne (scopes_eq_nil hrules) hrecords
    exact ⟨s, hstatement, h.entity_eq, fun db hdb rows hrun =>
      h.sublist_returned hproxy hfield hkeys hs hdata hdb hrun⟩

end Proxied

end Query

theorem Sample.hasUniqueKeys_database : Sample.database.HasUniqueKeys Sample.schema where
  keys_present := by decide +kernel
  keys_differ := by decide +kernel

namespace Query

/-- All activities that track a post or a comment are readable. -/
def trackedReading : Query := Sample.reading "Activity"
  [⟨true, ["read"], [.kind "Post", .kind "Activity"], .mapping .nil⟩,
    ⟨true, ["read"], [.kind "Comment", .kind "Activity"], .mapping .nil⟩]

theorem trackedReading_rows_once : ∃ records s rows, trackedReading.records = .ok records ∧
    records.statement = .select s ∧ s.run Sample.database = .ok rows ∧ rows.length = 4 ∧
      rows.Sublist ((Sample.database.rows "activities").map Sample.activity.cells) ∧
      rows.Nodup := by
  have hrules : ∀ rule ∈ trackedReading.rules, rule.HasPlainKeysAndData := by
    intro rule hrule
    rcases List.mem_pair.mp hrule with rfl | rfl <;> exact ⟨_, rfl, rfl⟩
  have hkeys : ∀ rule ∈ trackedReading.rules, trackedReading.HasSingleKey ⟨"trackable"⟩ rule := by
    intro rule hrule name c hname hc e he
    obtain rfl := Except.ok.inj hc
    rcases List.mem_pair.mp hrule with rfl | rfl <;> obtain rfl := Except.ok.inj hname <;>
      obtain rfl := Option.some.inj he <;> exact ⟨Sample.key "id" .integer, by decide, by decide⟩
  have hrecords : trackedReading.records = .ok _ := rfl
  obtain ⟨s, hs, _, honce⟩ :=
    proxy_rows_once rfl (by decide) hkeys Sample.wellFormed_schema
      (fun rule hrule => (hrules rule hrule).isMergeable)
      (fun rule hrule => (hrules rule hrule).comparesData) hrecords
  obtain rfl := Sql.Statement.select.inj hs
  exact ⟨_, _, _, hrecords, rfl, rfl, by decide +kernel,
    honce Sample.database Sample.hasUniqueKeys_database _ rfl⟩

/-- All activities that track a membership are readable. -/
def membershipReading : Query := Sample.reading "Activity"
  [⟨true, ["read"], [.kind "Membership", .kind "Activity"], .mapping .nil⟩]

/-- A user is a member of two organizations, and an activity tracks a membership of the user. -/
def twoMemberships : Database :=
  { Sample.database with
    rows := fun table =>
      if table = "memberships" then
        Sample.rowsOf Sample.membership.columns [[.int 1, .int 1, .null], [.int 1, .int 2, .null]]
      else if table = "activities" then
        Sample.rowsOf Sample.activity.columns
          [[.int 1, .str "membership.create", .str "Membership", .int 1]]
      else Sample.database.rows table }

/-- The primary key of a membership has two columns, of which the join compares the first. -/
theorem membership_found_twice : twoMemberships.HasUniqueKeys Sample.schema ∧
    ∃ s rows, membershipReading.records = .ok ⟨.select s, none, none⟩ ∧
      s.run twoMemberships = .ok rows ∧
      rows = List.replicate 2 [.int 1, .str "membership.create", .str "Membership", .int 1] ∧
      ¬ rows.Nodup :=
  ⟨⟨by decide +kernel, by decide +kernel⟩, _, _, rfl, rfl, by decide +kernel, by decide +kernel⟩

end Query

end RowPolicy
