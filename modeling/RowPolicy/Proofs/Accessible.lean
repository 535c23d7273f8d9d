import RowPolicy.Proofs.Joining
import RowPolicy.Proofs.Meaning
import RowPolicy.Proofs.Running
import RowPolicy.Query.Records

/-!
# The rows that a query returns

The statement of a query is joined along the associations of all rules. It returns the
cells of every row from which some choice of related rows follows all these associations,
so that the latest rule that holds by the choice allows.
-/

namespace RowPolicy

open Sql (Database Expr Join Row Select)

namespace Query

variable {q : Query} {s : Select} {p : Expr} {e : Entity} {db : Database}
  {choice : String → Row}

theorem scopes_eq_nil (hrules : ∀ rule ∈ q.rules, rule.condition.isMergeable = true) :
    q.scopes = [] := by
  rw [scopes, List.filterMap_eq_nil_iff]
  intro rule hrule
  obtain ⟨tree, htree⟩ := Condition.exists_tree (hrules rule hrule)
  rw [htree]

/-- Without a scope the statement is built from the rules. -/
theorem records_of_scopes (h : q.scopes = []) : q.records =
    if q.rules.isEmpty then q.emptyRecords
    else
      match q.proxy? with
      | some field => do return ⟨.select (← q.proxyStatement field), none, none⟩
      | none => if q.isMergeable then q.mergedRecords else q.fallbackRecords := by
  have hbody : q.scopeBody = .ok none := by
    unfold scopeBody
    rw [h]
  unfold records
  rw [hbody]
  rfl

/-- Mappings on an entity that is no proxy are merged into one statement. -/
theorem records_eq_mergedRecords (hproxy : q.proxy? = none) (hne : q.rules ≠ [])
    (hrules : ∀ rule ∈ q.rules, rule.condition.isMergeable = true) :
    q.records = q.mergedRecords := by
  have hempty : q.rules.isEmpty = false := by simpa using hne
  have hmergeable : q.isMergeable = true := by simpa [isMergeable] using hrules
  rw [records_of_scopes (scopes_eq_nil hrules), hproxy]
  simp only [hempty, hmergeable, if_true, Bool.false_eq_true, if_false]

/-- The merged statement is filtered by the predicate of the query. -/
theorem mergedRecords_eq_ok {records : Records} : q.mergedRecords = .ok records ↔
    ∃ p s, q.predicate = .ok p ∧ q.joinedStatement p = .ok s ∧
      records = ⟨.select s, some p, q.joins⟩ := by
  simp only [mergedRecords, Outcome.bind_eq_ok, Outcome.pure_eq_ok]
  constructor
  · rintro ⟨p, hp, s, hs, rfl⟩
    exact ⟨p, s, hp, hs, rfl⟩
  · rintro ⟨p, s, hp, hs, rfl⟩
    exact ⟨p, hp, s, hs, rfl⟩

/-- Records without rules have a statement that selects no row. -/
theorem exists_entity_of_emptyRecords {records : Records} (h : q.emptyRecords = .ok records) :
    ∃ e, q.schema.entity? q.entity = some e ∧ records =
      ⟨.select { Select.ofEntity e with filter := some (.const false) }, some (.const false),
        none⟩ := by
  unfold emptyRecords rowsWhere allRows at h
  split at h
  next => cases h
  next =>
    simp only [Outcome.bind_eq_ok, Outcome.pure_eq_ok] at h
    obtain ⟨_, ⟨base, hbase, rfl⟩, rfl⟩ := h
    split at hbase
    next e hentity =>
      obtain rfl := Except.ok.inj hbase
      exact ⟨e, hentity, rfl⟩
    next => cases hbase

theorem exists_emptyStatement (hrules : q.rules = []) {records : Records}
    (h : q.records = .ok records) : ∃ e, q.schema.entity? q.entity = some e ∧
      records.statement = .select { Select.ofEntity e with filter := some (.const false) } := by
  rw [records_of_scopes (scopes_eq_nil (by simp [hrules])), hrules] at h
  obtain ⟨e, hentity, rfl⟩ := exists_entity_of_emptyRecords h
  exact ⟨e, hentity, rfl⟩

/-- The statement for mappings is joined and filtered by their predicate. -/
theorem exists_joinedStatement (hproxy : q.proxy? = none) (hne : q.rules ≠ [])
    (hrules : ∀ rule ∈ q.rules, rule.condition.isMergeable = true)
    {predicate : Option Expr} {joins : Option JoinList}
    (hrecords : q.records = .ok ⟨.select s, predicate, joins⟩) :
    ∃ p, q.predicate = .ok p ∧ q.joinedStatement p = .ok s := by
  rw [records_eq_mergedRecords hproxy hne hrules, mergedRecords_eq_ok] at hrecords
  obtain ⟨p, statement, hp, hstatement, heq⟩ := hrecords
  obtain rfl := Sql.Statement.select.inj (Records.mk.inj heq).1
  exact ⟨p, hp, hstatement⟩

theorem toTree_joins : (q.joins.getD .nil).toTree =
    JoinTree.mergeAll (q.rules.map (·.condition.associations)) := by
  unfold joins JoinList.ofRules
  split
  next hnil => rw [hnil]; rfl
  next => exact JoinList.toTree_ofTree _

/-- The statement selects rows of the queried entity, filtered and joined along the list of the
query. -/
theorem joinedStatement_joins (h : q.joinedStatement p = .ok s) :
    q.schema.entity? q.entity = some s.entity ∧ s.filter = some p ∧
      s.joins = (q.joins.getD .nil).toTree.joins q.schema s.entity := by
  unfold joinedStatement at h
  simp only [Outcome.bind_eq_ok, Outcome.pure_eq_ok, liftLookup_eq_ok] at h
  obtain ⟨base, hbase, joined, hjoined, distinct, _, rfl⟩ := h
  unfold rowsWhere allRows at hbase
  cases hentity : q.schema.entity? q.entity with
  | none => simp [hentity, bind, Except.bind] at hbase
  | some e =>
      simp only [hentity, bind, Except.bind, pure, Except.pure, Except.ok.injEq] at hbase
      subst hbase
      obtain rfl := Schema.applyJoins_eq hentity hjoined
      exact ⟨rfl, rfl, rfl⟩

/-- Its joins are those to which the associations of the rules lead, in an order in which each
starts from a table that is there already. -/
theorem joinedStatement_spec (h : q.joinedStatement p = .ok s) :
    q.schema.entity? q.entity = some s.entity ∧ s.filter = some p ∧
      (∀ join, join ∈ s.joins ↔ ∃ rule ∈ q.rules, ∃ path,
        rule.condition.associations.Leads q.schema join s.entity path) ∧
      Join.InOrder [s.entity.table] s.joins := by
  obtain ⟨hentity, hfilter, hjoins⟩ := joinedStatement_joins h
  refine ⟨hentity, hfilter, fun join => ?_, hjoins ▸ JoinTree.inOrder_joins List.mem_cons_self⟩
  rw [hjoins, JoinTree.mem_joins, toTree_joins]
  simp only [JoinTree.leads_mergeAll, List.mem_map, exists_exists_and_eq_and]
  constructor
  · rintro ⟨path, rule, hrule, hleads⟩
    exact ⟨rule, hrule, path, hleads⟩
  · rintro ⟨rule, hrule, path, hleads⟩
    exact ⟨path, rule, hrule, hleads⟩

theorem joinedStatement_hasJoin (h : q.joinedStatement p = .ok s) :
    ∀ join ∈ s.joins, q.schema.HasJoin join := by
  obtain ⟨hentity, _, hmem, _⟩ := joinedStatement_spec h
  intro join hjoin
  obtain ⟨rule, _, path, hleads⟩ := (hmem join).mp hjoin
  exact hleads.hasJoin (Schema.lists_of_entity? hentity)

/-- The filter for mappings keeps to the tables of the entity and of the joins to which the rules
lead, but for the tables that their values mention. -/
theorem predicate_keepsTo (hproxy : q.isProxy = false)
    (hentity : q.schema.entity? q.entity = some e)
    (hrules : ∀ rule ∈ q.rules, rule.condition.isMergeable = true)
    (hkeys : ∀ rule ∈ q.rules, rule.HasPlainKeys) (hp : q.predicate = .ok p)
    (hplain : ∀ e ∈ q.schema.entities, splitKey? e.table = none) {tables : List String}
    (hroot : e.table ∈ tables) (htables : ∀ rule ∈ q.rules, ∀ path join,
      rule.condition.associations.Leads q.schema join e path → join.table ∈ tables) :
    p.KeepsTo tables (∀ rule ∈ q.rules, rule.ComparesData) (q.rules.flatMap Rule.mentioned) := by
  refine predicate_kept (Expr.kept_keepsTo _ _ _) hrules hp fun rule hrule condition hexpr => ?_
  obtain ⟨tree, hmapping⟩ := Condition.exists_tree (hrules rule hrule)
  have htables := htables rule hrule
  have hmentioned : tree.mentioned ⊆ q.rules.flatMap Rule.mentioned := fun t ht =>
    List.mem_flatMap.mpr ⟨rule, hrule, by rwa [Rule.mentioned, hmapping]⟩
  rw [hmapping] at htables
  exact fun expr hexpr' => (ruleExpr_keepsTo hproxy hentity hmapping hexpr hplain
    (hkeys rule hrule tree hmapping) hroot htables expr hexpr').mono (List.Subset.refl _)
      (fun hdata => hdata rule hrule tree hmapping) hmentioned

section Rules

variable (hproxy : q.isProxy = false) (hentity : q.schema.entity? q.entity = some e)
  (hrules : ∀ rule ∈ q.rules, rule.HasPlainKeysAndData) (hp : q.predicate = .ok p)
include hproxy hentity hrules hp

/-- A choice follows all rules if it meets every join to which a rule leads. -/
theorem forall_followedBy_iff :
    (∀ rule ∈ q.rules, rule.condition.associations.FollowedBy q.schema db choice e) ↔
      ∀ rule ∈ q.rules, ∀ path join, rule.condition.associations.Leads q.schema join e path →
        join.IsMet db choice := by
  refine forall₂_congr fun rule hrule => JoinTree.followedBy_iff ?_
  obtain ⟨tree, hmapping, _⟩ := hrules rule hrule
  obtain ⟨condition, hexpr⟩ := exists_ruleExpr hp rule hrule
  rw [hmapping]
  exact isResolved_of_ruleExpr hproxy hentity hmapping hexpr

/-- The filter is plain and mentions the tables of the entity and of the joins to which the
rules lead. -/
theorem predicate_isPlain (hplain : ∀ e ∈ q.schema.entities, splitKey? e.table = none)
    (tables : List String) (hroot : e.table ∈ tables)
    (htables : ∀ rule ∈ q.rules, ∀ path join,
      rule.condition.associations.Leads q.schema join e path → join.table ∈ tables) :
    (p.IsCondition ∧ p.isPlain = true) ∧ ∀ t ∈ p.tables, t ∈ tables :=
  (predicate_keepsTo hproxy hentity (fun rule hrule => (hrules rule hrule).isMergeable)
    (fun rule hrule => (hrules rule hrule).hasPlainKeys) hp hplain hroot htables).of_data
      fun rule hrule => (hrules rule hrule).comparesData

variable (hs : q.schema.WellFormed)
include hs

/-- On rows chosen along all rules the filter is true if the latest rule that holds by the
choice allows. -/
theorem eval_predicate_ofRows
    (hown : ∀ rule ∈ q.rules, rule.condition.associations.HasOwnTables q.schema e)
    (hfollowed : ∀ rule ∈ q.rules,
      rule.condition.associations.FollowedBy q.schema db choice e) :
    p.eval (.ofRows choice) = .yes ↔
      LatestAllows (fun rule => rule.condition.HoldsBy q.schema db choice e) q.rules := by
  have hmergeable := fun rule hrule => (hrules rule hrule).isMergeable
  rw [eval_predicate_eq_yes hmergeable hp]
  refine LatestAllows.congr fun rule hrule => ?_
  obtain ⟨tree, hmapping, htree⟩ := hrules rule hrule
  obtain ⟨condition, hexpr⟩ := exists_ruleExpr hp rule hrule
  have hown := hown rule hrule
  have hfollowed := hfollowed rule hrule
  rw [hmapping] at hown hfollowed ⊢
  exact ruleTruth_ofRows hs hproxy hentity hmapping htree hexpr hown hfollowed

end Rules

/-- A statement that is joined along the rules of a query and filtered by its predicate, in
which the tables joined differ. -/
structure IsMerged (q : Query) (s : Select) (p : Expr) : Prop where
  entity_eq : q.schema.entity? q.entity = some s.entity
  predicate_eq : q.predicate = .ok p
  filter_eq : s.filter = some p
  mem_joins : ∀ join, join ∈ s.joins ↔ ∃ rule ∈ q.rules, ∃ path,
    rule.condition.associations.Leads q.schema join s.entity path
  inOrder : Join.InOrder [s.entity.table] s.joins
  nodup : s.joinedTables.Nodup

/-- The statement for rules with plain keys and data, as far as it can be run, is such a
statement. -/
theorem exists_isMerged (hproxy : q.proxy? = none) (hne : q.rules ≠ [])
    (hrules : ∀ rule ∈ q.rules, rule.HasPlainKeysAndData) {predicate : Option Expr}
    {joins : Option JoinList} (hrecords : q.records = .ok ⟨.select s, predicate, joins⟩)
    {values : List Scalar} (hpassed : s.passed = .ok values) : ∃ p, q.IsMerged s p := by
  obtain ⟨p, hp, hstatement⟩ := exists_joinedStatement hproxy hne
    (fun rule hrule => (hrules rule hrule).isMergeable) hrecords
  obtain ⟨hentity, hfilter, hmem, horder⟩ := joinedStatement_spec hstatement
  exact ⟨p, hentity, hp, hfilter, hmem, horder, Select.nodup_joinedTables hpassed⟩

namespace IsMerged

theorem hasJoin (h : q.IsMerged s p) : ∀ join ∈ s.joins, q.schema.HasJoin join := by
  intro join hjoin
  obtain ⟨rule, _, path, hleads⟩ := (h.mem_joins join).mp hjoin
  exact hleads.hasJoin (Schema.lists_of_entity? h.entity_eq)

theorem mem_of_leads (h : q.IsMerged s p) : ∀ rule ∈ q.rules, ∀ path join,
    rule.condition.associations.Leads q.schema join s.entity path → join ∈ s.joins :=
  fun rule hrule path join hleads => (h.mem_joins join).mpr ⟨rule, hrule, path, hleads⟩

theorem hasOwnTables (h : q.IsMerged s p) : ∀ rule ∈ q.rules,
    rule.condition.associations.HasOwnTables q.schema s.entity := fun rule hrule =>
  Select.hasOwnTables h.hasJoin h.inOrder h.nodup (h.mem_of_leads rule hrule)

/-- A choice follows all rules if it meets every join of the statement. -/
theorem forall_isMet_iff (h : q.IsMerged s p) (hproxy : q.isProxy = false)
    (hrules : ∀ rule ∈ q.rules, rule.HasPlainKeysAndData) :
    (∀ join ∈ s.joins, join.IsMet db choice) ↔ ∀ rule ∈ q.rules,
      rule.condition.associations.FollowedBy q.schema db choice s.entity := by
  rw [forall_followedBy_iff hproxy h.entity_eq hrules h.predicate_eq]
  constructor
  · intro hmet rule hrule path join hleads
    exact hmet join (h.mem_of_leads rule hrule path join hleads)
  · intro hall join hjoin
    obtain ⟨rule, hrule, path, hleads⟩ := (h.mem_joins join).mp hjoin
    exact hall rule hrule path join hleads

end IsMerged

theorem isProxy_eq_false (hproxy : q.proxy? = none) : q.isProxy = false := by
  simp [isProxy, hproxy]

/-- Whether a choice starts at a row of an entity and follows the associations of all rules
from there. -/
def ReachedBy (q : Query) (db : Database) (e : Entity) (choice : String → Row) : Prop :=
  choice e.table ∈ db.rows e.table ∧
    ∀ rule ∈ q.rules, rule.condition.associations.FollowedBy q.schema db choice e

/-- Whether the latest rule that holds by a choice allows. -/
def AllowsBy (q : Query) (db : Database) (e : Entity) (choice : String → Row) : Prop :=
  LatestAllows (fun rule => rule.condition.HoldsBy q.schema db choice e) q.rules

namespace IsMerged

variable (h : q.IsMerged s p) (hs : q.schema.WellFormed) (hproxy : q.proxy? = none)
  (hrules : ∀ rule ∈ q.rules, rule.HasPlainKeysAndData)
include h hs hproxy hrules

/-- The filter of such a statement mentions tables that are joined only. -/
theorem combines : s.Combines q.schema p ∧ s.extraTables = [] := by
  obtain ⟨⟨_, hplain⟩, htables⟩ := predicate_isPlain (isProxy_eq_false hproxy) h.entity_eq hrules
    h.predicate_eq hs.table_plain (s.entity.table :: s.joins.map Join.table) List.mem_cons_self
    fun rule hrule path join hleads =>
      List.mem_cons_of_mem _ (List.mem_map_of_mem (h.mem_of_leads rule hrule path join hleads))
  exact Select.combines_of_hasJoin h.hasJoin h.inOrder h.filter_eq hplain htables

theorem nodup_tables : s.tables.Nodup := by
  rw [Select.tables, (h.combines hs hproxy hrules).2, List.append_nil]
  exact h.nodup

/-- It returns the cells of the rows from which some choice reaches related rows such that the
latest rule that holds by the choice allows. -/
theorem mem_returned {cells : List Scalar} :
    cells ∈ s.withoutRepeats ((s.selected db).map s.cells) ↔
      ∃ choice, q.ReachedBy db s.entity choice ∧ q.AllowsBy db s.entity choice ∧
        s.entity.cells (choice s.entity.table) = cells := by
  have hnoProxy := isProxy_eq_false hproxy
  obtain ⟨hcombines, hextra⟩ := h.combines hs hproxy hrules
  rw [hcombines.mem_returned hs (h.nodup_tables hs hproxy hrules)]
  refine exists_congr fun choice => ?_
  rw [Select.isChosen_iff h.hasJoin h.inOrder hextra, h.forall_isMet_iff hnoProxy hrules, ReachedBy]
  refine and_congr_right fun hreached => and_congr_left fun _ => ?_
  exact eval_predicate_ofRows hnoProxy h.entity_eq hrules h.predicate_eq hs h.hasOwnTables
    hreached.2

end IsMerged

/-- The statement for rules with plain keys and data returns the cells of the rows from which some
choice reaches related rows such that the latest rule that holds by the choice allows. -/
theorem exists_merged_run (db : Database) (hs : q.schema.WellFormed) (hproxy : q.proxy? = none)
    (hne : q.rules ≠ []) (hrules : ∀ rule ∈ q.rules, rule.HasPlainKeysAndData)
    {predicate : Option Expr} {joins : Option JoinList}
    (hrecords : q.records = .ok ⟨.select s, predicate, joins⟩) {values : List Scalar}
    (hpassed : s.passed = .ok values) :
    ∃ result, s.run db = .ok result ∧ ∀ cells, cells ∈ result ↔
      ∃ choice, q.ReachedBy db s.entity choice ∧ q.AllowsBy db s.entity choice ∧
        s.entity.cells (choice s.entity.table) = cells := by
  obtain ⟨p, h⟩ := exists_isMerged hproxy hne hrules hrecords hpassed
  obtain ⟨hcombines, _⟩ := h.combines hs hproxy hrules
  exact ⟨_, by rw [hcombines.run_eq, hpassed]; rfl, fun _ => h.mem_returned hs hproxy hrules⟩

end Query

end RowPolicy
