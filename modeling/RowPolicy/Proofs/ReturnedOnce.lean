import RowPolicy.Proofs.BuiltRecords
import RowPolicy.Proofs.FilterTables
import RowPolicy.Proofs.Resolving
import RowPolicy.Proofs.SingleRule

/-!
# How often a row of an ordinary entity is returned

A statement that is joined along the associations of its rules drops repetitions exactly if one of
these joins, at any depth, follows a relationship to many. Then it returns each row once, and so
it does without such a join as long as the filter mentions joined tables only: a table that only
the filter mentions is combined with every row.
-/

namespace RowPolicy

open Sql (Database Expr Join JoinedRow Row Select)

namespace Schema

variable {s : Schema} {entity : String} {e : Entity} {list : JoinList}

/-- A list along which a statement was joined resolves. -/
theorem isResolved_of_applyJoins {statement joined : Select} (hentity : s.entity? entity = some e)
    (h : s.applyJoins list entity statement = .ok joined) : list.toTree.IsResolved s e := by
  induction list generalizing entity e statement joined with
  | nil => trivial
  | name name rest ih =>
      simp only [applyJoins, Outcome.bind_eq_ok, joinAlong_eq_ok] at h
      obtain ⟨join, ⟨e', r, target, hentity', hresolves, rfl⟩, h⟩ := h
      obtain rfl := Option.some.inj (hentity.symm.trans hentity')
      exact ⟨⟨r, target, hresolves, trivial⟩, ih hentity h⟩
  | path name inner rest ihInner ihRest =>
      simp only [applyJoins, Outcome.bind_eq_ok, joinAlong_eq_ok, target_eq_ok] at h
      obtain ⟨join, ⟨e', r, target, hentity', hresolves, rfl⟩, targetName,
        ⟨e'', r', hentity'', hr', rfl⟩, middle, hmiddle, h⟩ := h
      -- the name is looked up twice, for the join and for where to go on
      obtain rfl := Option.some.inj (hentity.symm.trans hentity')
      obtain rfl := Option.some.inj (hentity.symm.trans hentity'')
      obtain rfl := Option.some.inj (hresolves.1.symm.trans hr')
      exact ⟨⟨r, target, hresolves, ihInner hresolves.2 hmiddle⟩, ihRest hentity h⟩

end Schema

namespace Sql.Select

variable {s : Select} {db : Database} {rows : List (List Scalar)}

/-- Whether the filter of a statement has a meaning without being read as text and mentions, unless
repetitions are dropped, joined tables only. -/
structure KeepsToJoins (s : Select) : Prop where
  isPlain : s.isPlain = true
  extraTables_eq : s.distinct = false → s.extraTables = []

/-- Whether two lists have the same rows in any order, where a truth value counts as the number that
a database stores for it. -/
def SameRows (rows rows' : List (List Scalar)) : Prop :=
  (rows.map (·.map Scalar.plain)).Perm (rows'.map (·.map Scalar.plain))

/-- Whether rows are those that a statement returns if its filter, though it may be given as text,
is read as one condition on the rows combined. -/
def ReadsAsCondition (s : Select) (db : Database) (rows : List (List Scalar)) : Prop :=
  ∃ holds : JoinedRow → Bool,
    SameRows rows (s.withoutRepeats (((s.combinations db).filter holds).map s.cells))

/-- Whether rows are those of an entity, with each row that is stored once at most. -/
def ReturnsOnce (s : Select) (db : Database) (rows : List (List Scalar)) : Prop :=
  ∃ found : List Row, found.Sublist (db.rows s.entity.table) ∧
    SameRows rows (found.map s.entity.cells)

/-- A plain filter is read as one condition. -/
theorem readsAsCondition_of_isPlain (hplain : s.isPlain = true) (hrun : s.run db = .ok rows) :
    s.ReadsAsCondition db rows := by
  rw [run_of_isPlain hplain, Outcome.map_eq_ok] at hrun
  obtain ⟨_, _, rfl⟩ := hrun
  cases hfilter : s.filter with
  | none => exact ⟨fun _ => true, by simp [SameRows, selected, hfilter]⟩
  | some e => exact ⟨Database.holds e, by simp [SameRows, selected, hfilter]⟩

end Sql.Select

namespace Query

variable {q : Query} {s : Select} {p : Expr} {db : Database}

/-- A statement joined along the associations of the rules drops repetitions exactly if one of its
joins follows a relationship to many. -/
theorem joinedStatement_distinct (h : q.joinedStatement p = .ok s) :
    s.distinct = true ↔ ∃ join ∈ s.joins, ¬ join.IsToOne := by
  obtain ⟨hentity, _, hmem, _⟩ := joinedStatement_spec h
  unfold joinedStatement at h
  simp only [Outcome.bind_eq_ok, Outcome.pure_eq_ok, liftLookup_eq_ok] at h
  obtain ⟨base, _, joined, hjoined, many, hmany, rfl⟩ := h
  obtain ⟨many', hmany', hiff⟩ := Schema.exists_crossesMany hentity
    (Schema.isResolved_of_applyJoins hentity hjoined)
  obtain rfl := Except.ok.inj (hmany.symm.trans hmany')
  rw [hiff, toTree_joins]
  simp only [JoinTree.CrossesMany, hmem, JoinTree.leads_mergeAll, List.mem_map,
    exists_exists_and_eq_and]
  refine exists_congr fun join => and_congr_left fun _ => ?_
  constructor
  · rintro ⟨path, rule, hrule, hleads⟩
    exact ⟨rule, hrule, path, hleads⟩
  · rintro ⟨rule, hrule, path, hleads⟩
    exact ⟨path, rule, hrule, hleads⟩

/-- Where the strategy is to merge the conditions or to put them side by side, the statement is
joined along the associations of the rules. -/
theorem exists_joinedStatement_of_strategy
    (hstrategy : q.strategy = .merged ∨ q.strategy = .fallback) {records : Records}
    (h : q.records = .ok records) :
    ∃ p s, q.joinedStatement p = .ok s ∧ records = ⟨.select s, some p, q.joins⟩ ∧
      q.isProxy = false ∧ (q.isMergeable = true → q.predicate = .ok p) := by
  have hbuilt := builtBy_of_records h
  rcases hstrategy with hmerged | hfallback
  · rw [hmerged] at hbuilt
    cases hbuilt with
    | merged hproxy _ hp hs => exact ⟨_, _, hs, rfl, hproxy, fun _ => hp⟩
  · rw [hfallback] at hbuilt
    cases hbuilt with
    | fallback hproxy _ hs =>
        refine ⟨_, _, hs, rfl, hproxy, fun hmergeable => ?_⟩
        simp only [strategy, hmergeable, if_true] at hfallback
        repeat' split at hfallback
        all_goals cases hfallback

section Once

variable (hs : q.schema.WellFormed) (h : q.joinedStatement p = .ok s) (hdb : db.Conforms q.schema)
  (hextra : s.distinct = false → s.extraTables = []) {rows : List (List Scalar)}
  (hrun : s.run db = .ok rows)
include hs h hdb hextra hrun

/-- Whichever combinations a statement selects that was run, they yield each row once. -/
theorem joined_once {selected : List JoinedRow}
    (hselected : selected.Sublist (s.combinations db)) :
    (s.withoutRepeats (selected.map s.cells)).Nodup ∧
      ∃ found : List Row, found.Sublist (db.rows s.entity.table) ∧
        (s.withoutRepeats (selected.map s.cells)).Perm (found.map s.entity.cells) := by
  obtain ⟨hentity, _, _, horder⟩ := joinedStatement_spec h
  have hjoins := joinedStatement_hasJoin h
  obtain ⟨hmem, hdistinct⟩ := Select.distinctJoins_spec hjoins horder
  obtain ⟨values, hpassed⟩ := Select.exists_passed hrun
  have hmany : ∀ join ∈ s.distinctJoins, ¬ join.IsToOne → s.distinct = true :=
    fun join hjoin hmany => (joinedStatement_distinct h).mpr ⟨join, (hmem join).mp hjoin, hmany⟩
  have hlisted := (Schema.lists_of_entity? hentity).mem
  have hcan := Sql.JoinStep.canJoinAll_of_inOrder
    (fun join hjoin => hjoins join ((hmem join).mp hjoin)) hdistinct
  have hnodup := (Select.tables_of_passed hpassed).1
  exact ⟨Select.nodup_returned hs hdb hlisted hcan hmany hextra hnodup hselected,
    Select.exists_found hs hdb hlisted hcan hmany hextra hnodup hselected⟩

/-- A statement with a plain filter returns each row once. -/
theorem nodup_of_isPlain (hplain : s.isPlain = true) : rows.Nodup := by
  obtain ⟨hnodup, _⟩ := joined_once hs h hdb hextra hrun Select.selected_sublist
  rw [Select.run_of_isPlain hplain, Outcome.map_eq_ok] at hrun
  obtain ⟨_, _, rfl⟩ := hrun
  exact hnodup

/-- And so does one with a filter that is read as one condition. -/
theorem returnsOnce_of_readsAsCondition (hreads : s.ReadsAsCondition db rows) :
    s.ReturnsOnce db rows := by
  obtain ⟨holds, hsame⟩ := hreads
  obtain ⟨_, found, hfound, hperm⟩ := joined_once hs h hdb hextra hrun
    (List.filter_sublist (p := holds))
  exact ⟨found, hfound, hsame.trans (hperm.map _)⟩

end Once

/-- The statement for rules with plain keys and data combines rows of joined tables only. -/
theorem combines_of_plainKeysAndData (hs : q.schema.WellFormed) (hproxy : q.isProxy = false)
    (hrules : ∀ rule ∈ q.rules, rule.HasPlainKeysAndData) (hp : q.predicate = .ok p)
    (h : q.joinedStatement p = .ok s) : s.Combines q.schema p ∧ s.extraTables = [] := by
  obtain ⟨hentity, hfilter, hmem, horder⟩ := joinedStatement_spec h
  obtain ⟨⟨_, hplain⟩, htables⟩ := predicate_isPlain hproxy hentity hrules hp hs.table_plain
    (s.entity.table :: s.joins.map Join.table) List.mem_cons_self fun rule hrule path join hleads =>
      List.mem_cons_of_mem _ (List.mem_map_of_mem ((hmem join).mpr ⟨rule, hrule, path, hleads⟩))
  exact Select.combines_of_hasJoin (joinedStatement_hasJoin h) horder hfilter hplain htables

/-- The statement for rules with plain keys and data keeps to its joins. -/
theorem keepsToJoins_of_plainKeysAndData (hs : q.schema.WellFormed) (hproxy : q.isProxy = false)
    (hrules : ∀ rule ∈ q.rules, rule.HasPlainKeysAndData) (hp : q.predicate = .ok p)
    (h : q.joinedStatement p = .ok s) : s.KeepsToJoins := by
  obtain ⟨hcombines, hextra⟩ := combines_of_plainKeysAndData hs hproxy hrules hp h
  exact ⟨(Select.isPlain_eq hcombines.filter_eq).trans hcombines.isPlain, fun _ => hextra⟩

/-- A statement for rules that are merged or stand side by side drops repetitions exactly if one
of its joins follows a relationship to many, where the joins are those to which the associations of
the rules lead. It returns each row once if its filter is read as one condition and mentions,
unless repetitions are dropped, joined tables only. A plain filter is read so, and rules with plain
keys and data have a plain filter on joined tables. -/
theorem joined_rows_once (hs : q.schema.WellFormed)
    (hstrategy : q.strategy = .merged ∨ q.strategy = .fallback) {records : Records}
    (hrecords : q.records = .ok records) :
    ∃ s, records.statement = .select s ∧
      (s.distinct = true ↔ ∃ join ∈ s.joins, ¬ join.IsToOne) ∧
      (∀ join, join ∈ s.joins ↔ ∃ rule ∈ q.rules, ∃ path,
        rule.condition.associations.Leads q.schema join s.entity path) ∧
      ((∀ rule ∈ q.rules, rule.HasPlainKeysAndData) → s.KeepsToJoins) ∧
      ∀ db : Database, db.Conforms q.schema → (s.distinct = false → s.extraTables = []) →
        ∀ rows, s.run db = .ok rows → (s.ReadsAsCondition db rows → s.ReturnsOnce db rows) ∧
          (s.isPlain = true → s.ReadsAsCondition db rows ∧ rows.Nodup) := by
  obtain ⟨p, s, h, rfl, hproxy, hp⟩ := exists_joinedStatement_of_strategy hstrategy hrecords
  refine ⟨s, rfl, joinedStatement_distinct h, (joinedStatement_spec h).2.2.1, fun hrules => ?_,
    fun db hdb hextra rows hrun => ⟨returnsOnce_of_readsAsCondition hs h hdb hextra hrun,
      fun hplain => ⟨Select.readsAsCondition_of_isPlain hplain hrun,
        nodup_of_isPlain hs h hdb hextra hrun hplain⟩⟩⟩
  have hmergeable : q.isMergeable = true := by
    rw [isMergeable, List.all_eq_true]
    exact fun rule hrule => (hrules rule hrule).isMergeable
  exact keepsToJoins_of_plainKeysAndData hs hproxy hrules (hp hmergeable) h

/-- Posts with an approved comment are readable, and by an expression published ones. -/
def commentedReading : Query := Sample.reading "Post"
  [Sample.readRule true "Post"
      (.association "comments" (.literal "approved" (.bool true) .nil) .nil),
    ⟨true, ["read"], [.kind "Post"],
      .fragment (.expr (.compare .eq ⟨"posts", "is_published", .truth⟩ (.truth true)))⟩]

/-- The first two posts and the published ones are readable, by a condition given as text. -/
def writtenReading : Query := Sample.reading "Post"
  [⟨true, ["read"], [.kind "Post"],
    .fragment (.expr (.fragment "posts.id < 3 OR posts.is_published"))⟩]

/-- The rows found when the text is read, in which a truth value is a number. -/
def writtenRows : List (List Scalar) :=
  [[.int 1, .str "Public Post", .int 1, .int 1], [.int 2, .str "Draft Post", .int 0, .int 1],
    [.int 3, .str "Bob's Post", .int 1, .int 2]]

/-- The text is read as a condition on each post, and the last one does not meet it. -/
theorem writtenReading_reads : ∃ s p joins, writtenReading.records = .ok ⟨.select s, p, joins⟩ ∧
    s.isPlain = false ∧ s.extraTables = [] ∧ s.run Sample.database = .ok writtenRows ∧
      s.ReadsAsCondition Sample.database writtenRows := by
  refine ⟨_, _, _, rfl, rfl, rfl, ?_, fun row => row.cell ⟨"posts", "id", .integer⟩ != .int 4,
    .of_eq (by decide +kernel)⟩
  have hnull : String.contains (postsWhere ++ "posts.id < 3 OR posts.is_published") '\x00' =
      false := by cbv
  rw [Select.run_of_template rfl rfl (by cbv) rfl rfl (by decide +kernel) hnull,
    Sql.ReadQuery.ofText, hnull]
  decide +kernel

theorem commentedReading_rows_once : (∃ records s rows, commentedReading.records = .ok records ∧
    records.statement = .select s ∧ s.distinct = true ∧ s.run Sample.database = .ok rows ∧
      rows = [[.int 1, .str "Public Post", .bool true, .int 1],
        [.int 3, .str "Bob's Post", .bool true, .int 2]] ∧ rows.Nodup) ∧
    ∃ records s, writtenReading.records = .ok records ∧ records.statement = .select s ∧
      s.isPlain = false ∧ s.run Sample.database = .ok writtenRows ∧
      s.ReturnsOnce Sample.database writtenRows := by
  constructor
  · have hrecords : commentedReading.records = .ok _ := rfl
    obtain ⟨s, hs, _, _, _, honce⟩ :=
      joined_rows_once Sample.wellFormed_schema (Or.inr rfl) hrecords
    obtain rfl := Sql.Statement.select.inj hs
    exact ⟨_, _, _, hrecords, rfl, rfl, rfl, by decide +kernel,
      ((honce Sample.database Sample.conforms_database (fun hrepeats => by cases hrepeats) _
        rfl).2 rfl).2⟩
  · obtain ⟨s, p, joins, hrecords, hplain, hextra, hrun, hreads⟩ := writtenReading_reads
    obtain ⟨s', hs', _, _, _, honce⟩ :=
      joined_rows_once Sample.wellFormed_schema (Or.inr rfl) hrecords
    obtain rfl := Sql.Statement.select.inj hs'
    exact ⟨_, _, hrecords, rfl, hplain, hrun,
      (honce Sample.database Sample.conforms_database (fun _ => hextra) _ hrun).1 hreads⟩

/-- All posts are readable as often as there are users that are not banned. -/
def unbannedReading : Query := Sample.reading "Post"
  [Sample.readRule true "Post" (.literal "users.banned" (.bool false) .nil)]

theorem unbannedReading_repeats : Sample.database.Conforms Sample.schema ∧
    unbannedReading.strategy = .merged ∧
    ∃ s p rows, unbannedReading.records = .ok ⟨.select s, some p, none⟩ ∧
      s.run Sample.database = .ok rows ∧ rows.length = 12 ∧ ¬ rows.Nodup :=
  ⟨Sample.conforms_database, rfl, _, _, _, rfl, rfl, by decide +kernel, by decide +kernel⟩

end Query

end RowPolicy
