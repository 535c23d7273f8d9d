import RowPolicy.Proofs.Accessible
import RowPolicy.Sample.Queries
import RowPolicy.Sample.Rows

/-!
# Selecting rows by their own attributes

Rules on the attributes of an entity need no joins. Their statement goes through the rows
of one table and returns exactly those for which the latest true rule allows.
-/

namespace RowPolicy

open Sql (Assignment Database Expr JoinedRow Row Select)

/-- Whether the condition of a rule compares attributes of the entity itself with data. -/
def Rule.IsOwn (rule : Rule) : Prop :=
  ∃ tree, rule.condition = .mapping tree ∧ tree.associations = .nil ∧
    ∀ entry ∈ tree.literals, splitKey? entry.1 = none ∧ entry.2.isData = true

/-- What every column holds in a single row. -/
def Sql.Assignment.ofRow (row : Row) : Assignment := fun c => row c.name

namespace Query

variable {q : Query} {rule : Rule} {e : Entity} {p : Expr} {db : Database}

/-- Rules without associations need no joins. -/
theorem joins_of_associations (hrules : ∀ rule ∈ q.rules, rule.condition.associations = .nil) :
    q.joins = none := by
  have hmerge : JoinTree.mergeAll (q.rules.map (·.condition.associations)) = .nil := by
    unfold JoinTree.mergeAll
    generalize q.rules = rules at hrules
    induction rules with
    | nil => rfl
    | cons rule rest ih =>
        obtain ⟨hrule, hrest⟩ := List.forall_mem_cons.mp hrules
        rw [List.map_cons, List.foldl_cons, hrule, JoinTree.merge_nil]
        exact ih hrest
  rw [joins, JoinList.ofRules, hmerge]

theorem joins_eq_none (hrules : ∀ rule ∈ q.rules, rule.IsOwn) : q.joins = none :=
  joins_of_associations fun rule hrule => by
    obtain ⟨tree, hmapping, hnil, _⟩ := hrules rule hrule
    rw [hmapping]
    exact hnil

/-- The expression of a rule on own attributes is plain and mentions the entity's table
only. -/
theorem ruleExpr_isOwn (hproxy : q.isProxy = false)
    (hentity : q.schema.entity? q.entity = some e) (hrule : rule.IsOwn)
    {condition : Option Expr} (hexpr : q.ruleExpr rule q.entity = .ok condition) :
    ∀ expr ∈ condition,
      (expr.IsCondition ∧ expr.isPlain = true) ∧ ∀ t ∈ expr.tables, t ∈ [e.table] := by
  obtain ⟨tree, hmapping, hnil, hliterals⟩ := hrule
  refine ruleExpr_kept (Expr.kept_tables Expr.kept_isPlain [e.table]) hmapping hexpr ?_
  rintro flat hflat entry hentry part hpart
  rw [hproxy] at hflat
  have hadded := (Naming.flattenInto_extends hentity hflat).2.of_mem hentry
  rcases hadded with hliteral | ⟨path, target, name, hpath, hbelow, _⟩
  · obtain ⟨c, hcolumn, hleaf⟩ := Schema.entryExpr_eq_ok.mp hpart
    obtain ⟨hplain, hdata⟩ := hliterals entry hliteral
    obtain ⟨e', hentity', hfound⟩ := Schema.column_eq_ok.mp hcolumn
    obtain rfl := Option.some.inj (hentity.symm.trans hentity')
    rw [hplain] at hfound
    obtain ⟨a, _, rfl⟩ := Option.map_eq_some_iff.mp hfound
    exact (Value.leaf_keepsTo hleaf).of_data hdata
  · obtain ⟨_, _, hleads⟩ := hbelow.exists_leads.resolve_left fun hroot => hpath hroot.1
    rw [hnil] at hleads
    exact hleads.elim

/-- A filter on the table of an entity leaves only the rows of that table to go through. -/
theorem run_where (hplain : p.isPlain = true) (htables : ∀ t ∈ p.tables, t ∈ [e.table]) :
    Select.run db { Select.ofEntity e with filter := some p } =
      (fun _ => ((db.rows e.table).filter fun row => p.eval (.ofRow row) == .yes).map e.cells) <$>
        (Select.convertedValues { Select.ofEntity e with filter := some p } >>= Sql.passAll) := by
  generalize hs : ({ Select.ofEntity e with filter := some p } : Select) = s
  have hfilter : s.filter = some p := by rw [← hs]
  have hentity : s.entity = e := by rw [← hs]; rfl
  have hdistinct : s.distinct = false := by rw [← hs]; rfl
  have hjoins : s.distinctJoins = [] := by rw [← hs]; rfl
  have hnumbered : s.numberedJoins = [] := by rw [← hs]; rfl
  have hjoined : s.joinedTables = [e.table] := by
    rw [Select.joinedTables, hjoins, hentity, List.map_nil]
  have hextra : s.extraTables = [] :=
    Select.extraTables_eq_nil hfilter (by rwa [hjoined])
  -- nothing is joined, so every combination is one row of the entity's table
  have hcheck : s.checkTables = .ok () := by
    simp [Select.checkTables, Select.tables, hjoined, hextra, hjoins, Select.repeated?,
      Select.notJoined?]
  have hpassed : s.passed = (s.convertedValues >>= Sql.passAll) := by
    simp [Select.passed, hcheck, bind, Except.bind]
  have hholds : ∀ row : Row,
      Database.holds p [(e.table, row)] = (p.eval (.ofRow row) == .yes) := by
    intro row
    refine congrArg (· == .yes) (Expr.eval_congr p fun c hc => ?_)
    obtain htable : c.table = e.table := by simpa using htables c.table hc
    rw [JoinedRow.cell_eq, htable, JoinedRow.rowOf_single]
    rfl
  have hcells : ∀ row : Row, s.cells [(e.table, row)] = e.cells row := by
    intro row
    rw [Select.cells_eq, hentity, JoinedRow.rowOf_single]
  rw [Select.run_of_isPlain ((Select.isPlain_eq hfilter).trans hplain), hpassed]
  unfold Select.withoutRepeats Select.selected Select.combinations
  simp only [hdistinct, hfilter, hnumbered, hextra, hentity, List.foldl_nil, List.filter_map,
    List.map_map, Function.comp_def, hholds, hcells, Bool.false_eq_true, if_false]

/-- The statement for rules on own attributes goes through the rows of the entity alone. -/
theorem records_isOwn (hproxy : q.proxy? = none) (hne : q.rules ≠ [])
    (hrules : ∀ rule ∈ q.rules, rule.IsOwn) (hentity : q.schema.entity? q.entity = some e)
    (h : q.predicate = .ok p) :
    q.records = .ok ⟨.select { Select.ofEntity e with filter := some p }, some p, none⟩ := by
  have hmergeable : ∀ rule ∈ q.rules, rule.condition.isMergeable = true := by
    intro rule hrule
    obtain ⟨tree, hmapping, _⟩ := hrules rule hrule
    rw [hmapping]
    rfl
  rw [records_eq_mergedRecords hproxy hne hmergeable]
  unfold mergedRecords joinedStatement rowsWhere allRows
  simp only [h, joins_eq_none hrules, hentity, bind, Except.bind, pure, Except.pure]
  rfl

/-- The filter of a query is true exactly where the latest rule whose own expression is true
allows. If rules mention attributes of the entity itself only, the query selects exactly the
rows for which this is so, as far as the values of the filter can be passed. -/
theorem predicate_selects (hne : q.rules ≠ [])
    (hrules : ∀ rule ∈ q.rules, rule.condition.isMergeable = true) (h : q.predicate = .ok p) :
    (∀ σ : Assignment, p.eval σ = .yes ↔
      LatestAllows (fun rule => q.ruleTruth σ q.entity rule = .yes) q.rules) ∧
    (∀ e : Entity, q.schema.entity? q.entity = some e → q.proxy? = none →
      (∀ rule ∈ q.rules, rule.IsOwn) →
        q.records = .ok ⟨.select { Select.ofEntity e with filter := some p }, some p, none⟩ ∧
        ∀ db : Database, Select.run db { Select.ofEntity e with filter := some p } =
          (fun _ => ((db.rows e.table).filter fun row => decide (LatestAllows
            (fun rule => q.ruleTruth (.ofRow row) q.entity rule = .yes) q.rules)).map e.cells) <$>
            (Select.convertedValues { Select.ofEntity e with filter := some p } >>=
              Sql.passAll)) := by
  have hdecides : ∀ σ : Assignment, p.eval σ = .yes ↔
      LatestAllows (fun rule => q.ruleTruth σ q.entity rule = .yes) q.rules :=
    fun _ => eval_predicate_eq_yes hrules h
  refine ⟨hdecides, fun e hentity hproxy hown =>
    ⟨records_isOwn hproxy hne hown hentity h, fun db => ?_⟩⟩
  have hkept := predicate_kept (Expr.kept_tables Expr.kept_isPlain [e.table]) hrules h
    fun rule hrule _ hexpr =>
      ruleExpr_isOwn (isProxy_eq_false hproxy) hentity (hown rule hrule) hexpr
  rw [run_where hkept.1.2 hkept.2]
  simp only [beq_eq_decide, hdecides]

/-- Users with the first user as their manager are readable, but later no banned user. -/
def reports : Query := Sample.reading "User"
  [Sample.readRule false "User" (.literal "banned" (.bool true) .nil),
    Sample.readRule true "User" (.literal "manager_id" (.int 1) .nil)]

theorem reports_selects : ∃ s p, reports.records = .ok ⟨.select s, some p, none⟩ ∧
    s.run Sample.database =
      .ok [[.int 3, .str "Carol", .int 1, .bool true, .bool false, .null]] ∧
    ∀ σ : Assignment, p.eval σ = .yes ↔
      LatestAllows (fun rule => reports.ruleTruth σ "User" rule = .yes) reports.rules := by
  have hmergeable : ∀ rule ∈ reports.rules, rule.condition.isMergeable = true := by
    intro rule hrule
    rcases List.mem_pair.mp hrule with rfl | rfl <;> rfl
  have hown : ∀ rule ∈ reports.rules, rule.IsOwn := by
    intro rule hrule
    rcases List.mem_pair.mp hrule with rfl | rfl
    · exact ⟨.literal "banned" (.bool true) .nil, rfl, rfl, by decide⟩
    · exact ⟨.literal "manager_id" (.int 1) .nil, rfl, rfl, by decide⟩
  obtain ⟨hdecides, hselects⟩ :=
    predicate_selects (q := reports) (by decide) hmergeable rfl
  obtain ⟨hrecords, hrun⟩ := hselects Sample.user rfl rfl hown
  refine ⟨_, _, hrecords, (hrun Sample.database).trans ?_, hdecides⟩
  decide +kernel

end Query

end RowPolicy
