import Mathlib.Data.List.Nodup
import RowPolicy.Proofs.JoinSteps

/-!
# The rows that a statement returns

A statement with a plain filter returns rows as soon as its values can be passed and its
tables told apart. It returns the cells of those choices of rows that every join goes on with
and for which the filter is true.
-/

namespace RowPolicy.Sql

/-- A query that was read from a text is run only if its values can be passed. -/
theorem ReadQuery.passAll_of_run {db : Database} {values : List Value} {rows : List (List Scalar)}
    (q : ReadQuery) (h : q.run db values = .ok rows) : ∃ cells, passAll values = .ok cells := by
  unfold run at h
  cases hfollowed : q.isFollowed with
  | true => simp [hfollowed, throw, throwThe, MonadExceptOf.throw, bind, Except.bind] at h
  | false =>
      by_cases hcount : q.valueCount = values.length
      · simp only [hfollowed, hcount, ne_eq, not_true_eq_false, if_false, Bool.false_eq_true,
          Outcome.bind_eq_ok] at h
        obtain ⟨cells, hcells, _⟩ := h
        exact ⟨cells, hcells⟩
      · simp [hfollowed, hcount, throw, throwThe, MonadExceptOf.throw, bind, Except.bind] at h

namespace Select

variable {db : Database} {s : Select} {cells : List Scalar}

/-- What is passed to run a statement: the values of its parameters, as cells. -/
def passed (s : Select) : Except RunError (List Scalar) := do
  let values ← s.convertedValues
  s.checkTables
  passAll values

theorem isPlain_eq {p : Expr} (hfilter : s.filter = some p) : s.isPlain = p.isPlain := by
  rw [Select.isPlain, hfilter, Option.all_some]

/-- A statement with a plain filter fails only where its values cannot be passed or its
tables not told apart. -/
theorem run_of_isPlain (h : s.isPlain = true) :
    s.run db = (fun _ => s.withoutRepeats ((s.selected db).map s.cells)) <$> s.passed := by
  unfold run passed
  simp only [h, if_true]
  cases s.convertedValues with
  | error e => rfl
  | ok values =>
      cases s.checkTables with
      | error e => rfl
      | ok _ =>
          cases hpass : passAll values with
          | error e => simp [bind, Except.bind, hpass, Functor.map, Except.map]
          | ok passed => simp [bind, Except.bind, hpass, Functor.map, Except.map, pure, Except.pure]

/-- A statement that was run could pass its values and tell its tables apart, whatever its filter
is. -/
theorem exists_passed {rows : List (List Scalar)} (h : s.run db = .ok rows) :
    ∃ cells, s.passed = .ok cells := by
  unfold run at h
  obtain ⟨values, hvalues, h⟩ := Outcome.bind_eq_ok.mp h
  suffices hrest : s.checkTables = .ok () ∧ ∃ cells, passAll values = .ok cells by
    obtain ⟨hcheck, cells, hcells⟩ := hrest
    refine ⟨cells, ?_⟩
    simp only [passed, hvalues, hcheck, bind, Except.bind]
    exact hcells
  split at h
  next =>
    simp only [Outcome.bind_eq_ok] at h
    obtain ⟨⟨⟩, hcheck, cells, hcells, _⟩ := h
    exact ⟨hcheck, cells, hcells⟩
  next =>
    unfold rowsByText at h
    cases hnull : s.template.heldText.contains '\x00' with
    | true => simp [hnull, throw, throwThe, MonadExceptOf.throw, bind, Except.bind] at h
    | false =>
        simp only [hnull, Bool.false_eq_true, if_false, Outcome.bind_eq_ok] at h
        obtain ⟨⟨⟩, hcheck, query, _, hquery⟩ := h
        exact ⟨hcheck, query.passAll_of_run hquery⟩

theorem convertAll_of_convertedValues {values : List Value} (h : s.convertedValues = .ok values) :
    convertAll s.template.values = .ok values := by
  unfold convertedValues at h
  split at h
  · cases h
  · split at h
    · cases h
    · exact h

/-- A statement with any other filter is written down with the values it holds and read again. -/
theorem run_of_template {pieces : Template} {written : Template.Bound} {text : String}
    (hplain : s.isPlain = false) (hself : s.selfJoin? = none) (hpieces : s.template = pieces)
    (hwritten : pieces.bound = .ok written) (hnamed : pieces.namedParameters = [])
    (htext : pieces.heldText = text) (hnull : text.contains '\x00' = false) :
    s.run db = (do
      let values ← convertAll pieces.values
      s.checkTables
      let query ← ReadQuery.ofText db text Reader.query
      query.run db values) := by
  have hvalues : s.convertedValues = convertAll pieces.values := by
    simp only [convertedValues, bound, write, hself, hpieces, hwritten, hnamed]
  simp only [run, rowsByText, hplain, hvalues, hpieces, htext, hnull, bind, Except.bind,
    Bool.false_eq_true, if_false]

theorem mem_withoutRepeats {rows : List (List Scalar)} :
    cells ∈ s.withoutRepeats rows ↔ cells ∈ rows := by
  unfold withoutRepeats
  split
  · exact List.mem_eraseDups
  · exact Iff.rfl

theorem repeated?_eq_none {tables : List String} : repeated? tables = none ↔ tables.Nodup := by
  induction tables with
  | nil => simp [repeated?]
  | cons t rest ih =>
      unfold repeated?
      rw [List.nodup_cons]
      split
      next hmem => simp [hmem]
      next hmem => simp [hmem, ih]

/-- The tables of a statement that is run differ, and outer joins refer to known ones. -/
theorem tables_of_passed {values : List Scalar} (h : s.passed = .ok values) :
    s.tables.Nodup ∧ notJoined? [s.entity.table] s.distinctJoins = none := by
  unfold passed at h
  simp only [Outcome.bind_eq_ok] at h
  obtain ⟨_, _, _, hcheck, _⟩ := h
  unfold checkTables at hcheck
  split at hcheck
  next => cases hcheck
  next hrepeated =>
    split at hcheck
    next => cases hcheck
    next hjoined => exact ⟨repeated?_eq_none.mp hrepeated, hjoined⟩

/-- The tables joined by a statement that is run differ. -/
theorem nodup_joinedTables {values : List Scalar} (h : s.passed = .ok values) :
    s.joinedTables.Nodup :=
  (List.nodup_append.mp (tables_of_passed h).1).1

/-- Numbers are all that is added to the joins carried out. -/
theorem map_fst_numberedJoins : s.numberedJoins.map Prod.fst = s.distinctJoins := by
  unfold numberedJoins
  generalize s.distinctJoins = joins
  have hgo : ∀ used : List String, (numberedJoins.go used joins).map Prod.fst = joins := by
    induction joins with
    | nil => exact fun _ => rfl
    | cons join rest ih =>
        intro used
        unfold numberedJoins.go
        split <;> simp [ih]
  exact hgo []

/-- Beside the joined tables stand those that only the filter mentions. -/
theorem mem_extraTables {p : Expr} (hfilter : s.filter = some p) {t : String} :
    t ∈ s.extraTables ↔ t ∈ p.tables ∧ t ∉ s.joinedTables := by
  rw [extraTables, hfilter, Option.elim, otherTables, List.mem_eraseDups, List.mem_filter]
  simp

/-- A filter that mentions joined tables only adds no other tables. -/
theorem extraTables_eq_nil {p : Expr} (hfilter : s.filter = some p)
    (htables : ∀ t ∈ p.tables, t ∈ s.joinedTables) : s.extraTables = [] := by
  rw [List.eq_nil_iff_forall_not_mem]
  intro t ht
  obtain ⟨hmentioned, hother⟩ := (mem_extraTables hfilter).mp ht
  exact hother (htables t hmentioned)

/-- The cells selected are those of the entity's own row. -/
theorem cells_eq (row : JoinedRow) :
    s.cells row = s.entity.cells (row.rowOf s.entity.table) := by
  unfold Select.cells Entity.cells Entity.columns
  rw [List.map_map, List.map_map]
  rfl

section Choice

variable {sch : Schema} {p : Expr} {choice : String → Row}
  (hjoins : ∀ join ∈ s.joins, sch.HasJoin join)
  (horder : Join.InOrder [s.entity.table] s.joins)
include hjoins horder

/-- The joins carried out are those asked for, in an order in which they can be. -/
theorem distinctJoins_spec :
    (∀ join, join ∈ s.distinctJoins ↔ join ∈ s.joins) ∧
      Join.InOrder [s.entity.table] s.distinctJoins :=
  Join.eraseDups_repeats
    (fun join hjoin join' hjoin' => (hjoins join hjoin).eq_of_repeats (hjoins join' hjoin'))
    (fun join hjoin => (hjoins join hjoin).repeats_self) horder

theorem mem_joinedTables {table : String} :
    table ∈ s.joinedTables ↔ table ∈ s.entity.table :: s.joins.map Join.table := by
  simp only [joinedTables, List.mem_cons, List.mem_map, (distinctJoins_spec hjoins horder).1]

/-- If the tables joined differ, a tree along which the statement is joined leads to joins
with tables of their own. -/
theorem hasOwnTables {tree : JoinTree} (hnodup : s.joinedTables.Nodup)
    (hsub : ∀ path join, tree.Leads sch join s.entity path → join ∈ s.joins) :
    tree.HasOwnTables sch s.entity := by
  have hmem := (distinctJoins_spec hjoins horder).1
  obtain ⟨hroot, hdistinct⟩ := List.nodup_cons.mp hnodup
  constructor
  · intro path path' join join' h h' htable
    exact List.inj_on_of_nodup_map hdistinct ((hmem join).mpr (hsub path join h))
      ((hmem join').mpr (hsub path' join' h')) htable
  · intro path join h htable
    exact hroot (htable ▸ List.mem_map_of_mem ((hmem join).mpr (hsub path join h)))

/-- And the tables joined differ if a tree that leads to all joins has tables of their own. -/
theorem nodup_of_hasOwnTables {tree : JoinTree} (hown : tree.HasOwnTables sch s.entity)
    (hleads : ∀ join ∈ s.joins, ∃ path, tree.Leads sch join s.entity path) :
    s.joinedTables.Nodup := by
  have hmem := (distinctJoins_spec hjoins horder).1
  refine List.nodup_cons.mpr ⟨fun hroot => ?_, List.pairwise_map.mpr ?_⟩
  · obtain ⟨join, hjoin, htable⟩ := List.mem_map.mp hroot
    obtain ⟨path, hpath⟩ := hleads join ((hmem join).mp hjoin)
    exact hown.ne_root path join hpath htable
  · refine (Join.eraseDupsBy_spec Join.repeats s.joins).2.imp_of_mem ?_
    intro join join' hjoin hjoin' hother htable
    obtain ⟨path, hpath⟩ := hleads join ((hmem join).mp hjoin)
    obtain ⟨path', hpath'⟩ := hleads join' ((hmem join').mp hjoin')
    obtain rfl := hown.join_unique path path' join join' hpath hpath' htable
    rw [(hjoins join ((hmem join).mp hjoin)).repeats_self] at hother
    cases hother

end Choice

/-! ## The rows combined -/

/-- Whether a choice of rows is one that a statement combines: every join goes on with its row,
and other tables have a row stored. -/
def IsChosen (s : Select) (db : Database) (choice : String → Row) : Prop :=
  choice s.entity.table ∈ db.rows s.entity.table ∧
    (∀ join ∈ s.distinctJoins, join.IsChosen db choice) ∧
    ∀ t ∈ s.extraTables, choice t ∈ db.rows t

/-- The steps in which a statement combines rows. -/
def steps (s : Select) (db : Database) : List JoinStep :=
  s.numberedJoins.map (.ofJoin db) ++ s.extraTables.map (.ofTable db)

theorem combinations_eq : s.combinations db =
    JoinStep.run (s.steps db) ((db.rows s.entity.table).map fun r => [(s.entity.table, r)]) := by
  unfold combinations steps JoinStep.run
  rw [List.foldl_append, List.foldl_map, List.foldl_map]
  rfl

theorem forall_steps {choice : String → Row} : (∀ step ∈ s.steps db, step.Allows choice) ↔
    (∀ join ∈ s.distinctJoins, join.IsChosen db choice) ∧
      ∀ t ∈ s.extraTables, choice t ∈ db.rows t := by
  rw [steps, List.forall_mem_append, List.forall_mem_map, List.forall_mem_map,
    ← map_fst_numberedJoins, List.forall_mem_map]
  rfl

theorem joinedTables_eq :
    s.joinedTables = [s.entity.table] ++ s.numberedJoins.map fun join => join.1.table := by
  rw [joinedTables, ← map_fst_numberedJoins, List.map_map]
  rfl

theorem map_table_steps : [s.entity.table] ++ (s.steps db).map JoinStep.table = s.tables := by
  rw [steps, List.map_append, List.map_map, List.map_map, tables, joinedTables_eq,
    ← List.append_assoc]
  exact congrArg (_ ++ ·) (List.map_id _)

section Steps

variable {sch : Schema} (hs : sch.WellFormed)
  (hjoins : sch.CanJoinAll [s.entity.table] s.distinctJoins)
  (halias : ∀ t ∈ s.extraTables, ¬ sch.IsAlias t) (hnodup : s.tables.Nodup)
include hs hjoins halias hnodup

theorem inOrder_steps : JoinStep.InOrder sch [s.entity.table] (s.steps db) := by
  obtain ⟨hjoined, hextra, hapart⟩ := List.nodup_append.mp hnodup
  refine JoinStep.InOrder.append (JoinStep.inOrder_joins hs ?_ (joinedTables_eq ▸ hjoined))
    fun known hknown => JoinStep.inOrder_tables hextra (fun t ht hmem => ?_) halias
  · rwa [map_fst_numberedJoins]
  · have hjoins := (hknown t).mp hmem
    rw [List.map_map] at hjoins
    exact hapart t (joinedTables_eq ▸ List.mem_append.mpr hjoins) t ht rfl

/-- Every combination of rows is a choice. -/
theorem combinations_sound {row : JoinedRow} (h : row ∈ s.combinations db) :
    s.IsChosen db row.rowOf := by
  rw [combinations_eq] at h
  obtain ⟨first, hfirst, hagree, hallowed⟩ := JoinStep.run_sound
    (inOrder_steps hs hjoins halias hnodup) (fun first hfirst => by
      obtain ⟨r, _, rfl⟩ := List.mem_map.mp hfirst
      exact JoinedRow.covers_single _ _ r) h
  obtain ⟨r, hr, rfl⟩ := List.mem_map.mp hfirst
  refine ⟨?_, forall_steps.mp hallowed⟩
  rw [hagree _ List.mem_cons_self, JoinedRow.rowOf_single]
  exact hr

/-- Every choice agrees with a combination of rows on the tables of the statement. -/
theorem combinations_complete {choice : String → Row} (h : s.IsChosen db choice) :
    ∃ row ∈ s.combinations db, ∀ t ∈ s.tables, row.rowOf t = choice t := by
  rw [combinations_eq, ← @map_table_steps db s]
  exact JoinStep.run_complete (inOrder_steps hs hjoins halias hnodup)
    (JoinedRow.covers_single _ _ _) (List.mem_map.mpr ⟨_, h.1, rfl⟩)
    (by simpa using JoinedRow.rowOf_single _ _) (forall_steps.mpr h.2)

/-- Whether a choice is one depends on the rows chosen of the tables of the statement only. -/
theorem IsChosen.congr {choice choice' : String → Row} (h : s.IsChosen db choice)
    (hagree : ∀ t ∈ s.tables, choice t = choice' t) : s.IsChosen db choice' := by
  have hroot := hagree s.entity.table (List.mem_append_left _ List.mem_cons_self)
  refine ⟨hroot ▸ h.1, forall_steps.mp ?_⟩
  refine (inOrder_steps hs hjoins halias hnodup).allows_congr ?_ (forall_steps.mpr h.2)
  rwa [map_table_steps]

end Steps

/-- The tables that a filter mentions are tables of the statement. -/
theorem mem_tables_of_filter {p : Expr} (hfilter : s.filter = some p) :
    ∀ t ∈ p.tables, t ∈ s.tables := by
  intro t ht
  rw [tables, List.mem_append, mem_extraTables hfilter]
  by_cases hjoined : t ∈ s.joinedTables
  · exact Or.inl hjoined
  · exact Or.inr ⟨ht, hjoined⟩

/-- A statement with a plain filter whose joins can be carried out one after the other, and in
which no linking table is taken for another one. -/
structure Combines (s : Select) (sch : Schema) (p : Expr) : Prop where
  filter_eq : s.filter = some p
  isPlain : p.isPlain = true
  canJoinAll : sch.CanJoinAll [s.entity.table] s.distinctJoins
  not_isAlias : ∀ t ∈ s.extraTables, ¬ sch.IsAlias t

/-- The rows that such a statement returns, if its tables differ, are the cells of the choices of
rows for which the filter is true. -/
theorem Combines.mem_returned {sch : Schema} {p : Expr} (h : s.Combines sch p)
    (hs : sch.WellFormed) (hnodup : s.tables.Nodup) :
    cells ∈ s.withoutRepeats ((s.selected db).map s.cells) ↔
      ∃ choice, s.IsChosen db choice ∧ p.eval (.ofRows choice) = .yes ∧
        s.entity.cells (choice s.entity.table) = cells := by
  simp only [mem_withoutRepeats, List.mem_map, selected, h.filter_eq, List.mem_filter,
    Database.holds, beq_iff_eq]
  constructor
  · rintro ⟨row, ⟨hrow, htrue⟩, rfl⟩
    exact ⟨row.rowOf, combinations_sound hs h.canJoinAll h.not_isAlias hnodup hrow, htrue,
      (cells_eq row).symm⟩
  · rintro ⟨choice, hchosen, htrue, rfl⟩
    obtain ⟨row, hrow, hagree⟩ :=
      combinations_complete hs h.canJoinAll h.not_isAlias hnodup hchosen
    refine ⟨row, ⟨hrow, ?_⟩, ?_⟩
    · rw [← htrue]
      exact JoinStep.eval_ofRows_congr (mem_tables_of_filter h.filter_eq) hagree
    · rw [cells_eq, hagree _ (List.mem_append_left _ List.mem_cons_self)]

/-- It returns them as soon as what it needs can be passed. -/
theorem Combines.run_eq {sch : Schema} {p : Expr} (h : s.Combines sch p) :
    s.run db = (fun _ => s.withoutRepeats ((s.selected db).map s.cells)) <$> s.passed :=
  run_of_isPlain ((isPlain_eq h.filter_eq).trans h.isPlain)

theorem Combines.exists_run {sch : Schema} {p : Expr} (h : s.Combines sch p)
    (hs : sch.WellFormed) {values : List Scalar} (hpassed : s.passed = .ok values)
    (db : Database) :
    ∃ result, s.run db = .ok result ∧ ∀ cells, cells ∈ result ↔
      ∃ choice, s.IsChosen db choice ∧ p.eval (.ofRows choice) = .yes ∧
        s.entity.cells (choice s.entity.table) = cells :=
  ⟨_, by rw [h.run_eq, hpassed]; rfl, fun _ => h.mem_returned hs (tables_of_passed hpassed).1⟩

section HasJoin

variable {sch : Schema} {p : Expr} (hjoins : ∀ join ∈ s.joins, sch.HasJoin join)
  (horder : Join.InOrder [s.entity.table] s.joins)
include hjoins horder

/-- Joins along relationships and a plain filter on the tables joined combine rows. -/
theorem combines_of_hasJoin (hfilter : s.filter = some p) (hplain : p.isPlain = true)
    (htables : ∀ t ∈ p.tables, t ∈ s.entity.table :: s.joins.map Join.table) :
    s.Combines sch p ∧ s.extraTables = [] := by
  obtain ⟨hmem, hdistinct⟩ := distinctJoins_spec hjoins horder
  have hextra := extraTables_eq_nil hfilter fun t ht =>
    (mem_joinedTables hjoins horder).mpr (htables t ht)
  refine ⟨⟨hfilter, hplain, JoinStep.canJoinAll_of_inOrder (fun join hjoin => ?_) hdistinct, ?_⟩,
    hextra⟩
  · exact hjoins join ((hmem join).mp hjoin)
  · simp [hextra]

/-- The choices of rows are those that meet every join. -/
theorem isChosen_iff (hextra : s.extraTables = []) {choice : String → Row} :
    s.IsChosen db choice ↔ choice s.entity.table ∈ db.rows s.entity.table ∧
      ∀ join ∈ s.joins, join.IsMet db choice := by
  have hchosen : (∀ join ∈ s.distinctJoins, join.IsChosen db choice) ↔
      ∀ join ∈ s.joins, join.IsMet db choice := by
    simp only [(distinctJoins_spec hjoins horder).1]
    refine forall₂_congr fun join hjoin => ?_
    obtain ⟨source, name, r, target, rfl, _⟩ := hjoins join hjoin
    rfl
  rw [IsChosen, hchosen, hextra]
  simp

end HasJoin

end Select

end RowPolicy.Sql
