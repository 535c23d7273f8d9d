import Mathlib.Data.List.Permutation
import RowPolicy.Proofs.OutlinedStatements
import RowPolicy.Proofs.ReturnedOnce

/-!
# Neighbouring rules of one behaviour

Two neighbouring rules that both allow or both deny may be declared in either order. The filter is
folded and cut short at other points then, and the joins come in another order, but the filter has
the same truth value for any rows, and the joins are the same. Only a table that the filter mentions
without a join may be there in one order and not in the other, where a constant settles the filter
before the table is mentioned. That changes the rows at most where the table is empty.
-/

namespace RowPolicy

open Sql (Assignment Database Expr Join Row Select Truth)

/-- Whether two lists differ in the order of two neighbouring rules that both allow or both
deny. -/
inductive Exchanged : List Rule → List Rule → Prop
  | here {first second : Rule} (h : first.allow = second.allow) (earlier : List Rule) :
      Exchanged (first :: second :: earlier) (second :: first :: earlier)
  | later {rules rules' : List Rule} (rule : Rule) (h : Exchanged rules rules') :
      Exchanged (rule :: rules) (rule :: rules')

namespace Exchanged

variable {rules rules' : List Rule}

theorem symm (h : Exchanged rules rules') : Exchanged rules' rules := by
  induction h with
  | here h earlier => exact .here h.symm earlier
  | later rule _ ih => exact .later rule ih

theorem perm (h : Exchanged rules rules') : rules.Perm rules' := by
  induction h with
  | here _ earlier => exact .swap _ _ earlier
  | later rule _ ih => exact ih.cons rule

theorem forall_mem {P : Rule → Prop} (h : Exchanged rules rules')
    (hrules : ∀ rule ∈ rules, P rule) : ∀ rule ∈ rules', P rule :=
  fun rule hrule => hrules rule (h.perm.mem_iff.mpr hrule)

theorem exists_cons_cons (h : Exchanged rules rules') :
    ∃ first second rest, rules = first :: second :: rest := by
  cases h with
  | here _ earlier => exact ⟨_, _, _, rfl⟩
  | later rule h => cases h <;> exact ⟨_, _, _, rfl⟩

/-- What rules of one behaviour add to a filter or take from it does not depend on their order. -/
theorem overrideAll_eq (h : Exchanged rules rules') (start : Truth) (truth : Rule → Truth) :
    Truth.overrideAll start truth rules = Truth.overrideAll start truth rules' := by
  have hcomm : ∀ (allow : Bool) (t t' acc : Truth),
      Truth.override allow t (Truth.override allow t' acc) =
        Truth.override allow t' (Truth.override allow t acc) := by
    intro allow t t' acc
    cases allow <;> cases t <;> cases t' <;> cases acc <;> rfl
  induction h with
  | here h earlier =>
      simp only [Truth.overrideAll_cons]
      rw [h, hcomm]
  | later rule _ ih => rw [Truth.overrideAll_cons, Truth.overrideAll_cons, ih]

end Exchanged

/-! ## Statements that can be built -/

namespace Query

variable {q : Query}

/-- A statement for several rules with mappings is built exactly if the entity is known and the
condition of each rule can be built. -/
theorem exists_mergedRecords_iff (hproxy : q.proxy? = none)
    (hrules : ∀ rule ∈ q.rules, rule.condition.isMergeable = true) {first second : Rule}
    {rest : List Rule} (hlist : q.rules = first :: second :: rest) :
    (∃ built, q.records = .ok built) ↔ (∃ e, q.schema.entity? q.entity = some e) ∧
      ∀ rule ∈ q.rules, ∃ condition, q.ruleExpr rule q.entity = .ok condition := by
  rw [records_eq_mergedRecords hproxy (by simp [hlist]) hrules]
  simp only [mergedRecords_eq_ok]
  constructor
  · rintro ⟨_, p, s, hp, hstatement, _⟩
    exact ⟨⟨_, (joinedStatement_joins hstatement).1⟩, exists_ruleExpr hp⟩
  · rintro ⟨⟨e, hentity⟩, hexprs⟩
    obtain ⟨p, hp⟩ := (exists_combined_iff hrules).mpr hexprs
    have hpredicate : q.predicate = .ok p := by rw [predicate_eq, hlist, hp]
    -- a condition that was built was flattened before, so that its associations resolve
    have hresolved : ∀ rule ∈ q.rules, rule.condition.associations.IsResolved q.schema e := by
      intro rule hrule
      obtain ⟨tree, htree⟩ := Condition.exists_tree (hrules rule hrule)
      obtain ⟨condition, hexpr⟩ := hexprs rule hrule
      rw [htree]
      exact isResolved_of_ruleExpr (isProxy_eq_false hproxy) hentity htree hexpr
    obtain ⟨s, hstatement, _⟩ := exists_joined hentity hresolved p
    exact ⟨_, p, s, hpredicate, hstatement, rfl⟩

end Query

/-! ## Rows of tables without a join -/

namespace Sql

/-- A choice of rows in which those of some tables are replaced by stored ones. -/
def restored (db : Database) (tables : List String) (choice : String → Row) : String → Row :=
  fun t => if t ∈ tables then (db.rows t).headD (choice t) else choice t

theorem restored_of_not_mem {db : Database} {tables : List String} {choice : String → Row}
    {t : String} (h : t ∉ tables) : restored db tables choice t = choice t :=
  if_neg h

theorem restored_mem {db : Database} {tables : List String} {choice : String → Row} {t : String}
    (h : t ∈ tables) (hrows : db.rows t ≠ []) : restored db tables choice t ∈ db.rows t := by
  rw [restored, if_pos h]
  cases hlist : db.rows t with
  | nil => exact (hrows hlist).elim
  | cons first rest => exact List.mem_cons_self

namespace Select

variable {s s' : Select} {sch : Schema} {p p' : Expr} {db : Database}

/-- A statement returns no other rows than one with the same joins whose filter is true wherever
its own is, if each table that only the other one mentions without a join has a row. -/
theorem run_subset_of_eval (hs : sch.WellFormed) (h : s.Combines sch p) (h' : s'.Combines sch p')
    (hentity : s'.entity = s.entity)
    (hjoins : ∀ join, join ∈ s.distinctJoins ↔ join ∈ s'.distinctJoins)
    (heval : ∀ σ, p'.eval σ = .yes → p.eval σ = .yes)
    (hstored : ∀ t ∈ s.extraTables, t ∉ s'.extraTables → db.rows t ≠ [])
    {rows rows' : List (List Scalar)} (hrun : s.run db = .ok rows)
    (hrun' : s'.run db = .ok rows') : rows' ⊆ rows := by
  obtain ⟨values', hpassed'⟩ := exists_passed hrun'
  have hnodup := (tables_of_passed hpassed').1
  -- the tables of which the row chosen may not be stored
  let missing := s.extraTables.filter fun t => t ∉ s'.extraTables
  have hmissing : ∀ t, t ∈ missing ↔ t ∈ s.extraTables ∧ t ∉ s'.extraTables := by
    simp [missing]
  have hapart : ∀ t ∈ s'.tables, t ∉ missing := by
    intro t ht hmem
    obtain ⟨hextra, hother⟩ := (hmissing t).mp hmem
    have hnotJoined := ((mem_extraTables h.filter_eq).mp hextra).2
    rcases List.mem_append.mp ht with hjoined | hextra'
    · refine hnotJoined ?_
      simpa only [joinedTables, List.mem_cons, List.mem_map, hjoins, hentity] using hjoined
    · exact hother hextra'
  refine run_subset p hs h' hentity (fun choice hchosen htrue => ?_) hrun hrun'
  have hagree : ∀ t ∈ s'.tables, choice t = restored db missing choice t :=
    fun t ht => (restored_of_not_mem (hapart t ht)).symm
  obtain ⟨hroot, hmet, hextra⟩ :=
    hchosen.congr hs h'.canJoinAll h'.not_isAlias hnodup hagree
  refine ⟨h, restored db missing choice,
    ⟨hentity ▸ hroot, fun join hjoin => ?_, fun t ht => ?_⟩, heval _ ?_, ?_⟩
  · exact hmet join ((hjoins join).mp hjoin)
  · by_cases hother : t ∈ s'.extraTables
    · exact hextra t hother
    · exact restored_mem ((hmissing t).mpr ⟨ht, hother⟩) (hstored t ht hother)
  · rw [← htrue]
    exact (JoinStep.eval_ofRows_congr (mem_tables_of_filter h'.filter_eq) hagree).symm
  · exact (hagree _ (List.mem_append_left _ (hentity ▸ List.mem_cons_self))).symm

end Select

end Sql

/-! ## Two orders -/

namespace Query

variable {q : Query} {s s' : Select} {p p' : Expr} {db : Database} {rules rules' : List Rule}

theorem mem_paths_joins {path : List String} : path ∈ (q.joins.getD .nil).toTree.paths ↔
    ∃ rule ∈ q.rules, path ∈ rule.condition.associations.paths := by
  rw [toTree_joins, JoinTree.mem_paths_mergeAll]
  simp

section Exchanged

variable (hs : q.schema.WellFormed) (hfresh : q.schema.HasFreshAliases)
  (hrules : ∀ rule ∈ rules, rule.condition.isMergeable = true) (h : Exchanged rules rules')
include h

theorem strategy_exchanged (hproxy : q.proxy? = none)
    (hrules : ∀ rule ∈ rules, rule.condition.isMergeable = true) :
    (q.withRules rules).strategy = .merged := by
  obtain ⟨first, second, rest, hlist⟩ := h.exists_cons_cons
  have hne : (q.withRules rules).rules ≠ [] := by simp [withRules, hlist]
  have hmergeable : (q.withRules rules).isMergeable = true := List.all_eq_true.mpr hrules
  have hnoProxy : (q.withRules rules).isProxy = false := isProxy_eq_false hproxy
  rw [strategy_of_scopes (scopes_eq_nil hrules) hne, hnoProxy, hmergeable]
  rfl

theorem exists_records_exchanged (hproxy : q.proxy? = none)
    (hrules : ∀ rule ∈ rules, rule.condition.isMergeable = true) :
    (∃ built, (q.withRules rules).records = .ok built) ↔
      ∃ built, (q.withRules rules').records = .ok built := by
  obtain ⟨_, _, _, hlist⟩ := h.exists_cons_cons
  obtain ⟨_, _, _, hlist'⟩ := h.symm.exists_cons_cons
  rw [exists_mergedRecords_iff (q := q.withRules rules) hproxy hrules hlist,
    exists_mergedRecords_iff (q := q.withRules rules') hproxy (h.forall_mem hrules) hlist']
  exact and_congr_right fun _ => ⟨h.forall_mem, h.symm.forall_mem⟩

theorem eval_exchanged (hrules : ∀ rule ∈ rules, rule.condition.isMergeable = true)
    (hp : (q.withRules rules).predicate = .ok p) (hp' : (q.withRules rules').predicate = .ok p')
    (σ : Assignment) : p.eval σ = p'.eval σ := by
  rw [eval_predicate (q := q.withRules rules) hrules hp,
    eval_predicate (q := q.withRules rules') (h.forall_mem hrules) hp']
  exact h.overrideAll_eq _ _

/-- The statements join the same entity to the same rows. -/
theorem joins_exchanged (hstatement : (q.withRules rules).joinedStatement p = .ok s)
    (hstatement' : (q.withRules rules').joinedStatement p' = .ok s') :
    s'.entity = s.entity ∧ ∀ join, join ∈ s.joins ↔ join ∈ s'.joins := by
  obtain ⟨hentity, _, hmem, _⟩ := joinedStatement_spec hstatement
  obtain ⟨hentity', _, hmem', _⟩ := joinedStatement_spec hstatement'
  have hsame : s'.entity = s.entity := Option.some.inj (hentity'.symm.trans hentity)
  refine ⟨hsame, fun join => ?_⟩
  rw [hmem, hmem', hsame]
  exact exists_congr fun rule => and_congr_left fun _ => h.perm.mem_iff

theorem distinct_exchanged (hstatement : (q.withRules rules).joinedStatement p = .ok s)
    (hstatement' : (q.withRules rules').joinedStatement p' = .ok s') :
    s.distinct = s'.distinct := by
  rw [Bool.eq_iff_iff, joinedStatement_distinct hstatement, joinedStatement_distinct hstatement']
  exact exists_congr fun join => and_congr_left fun _ =>
    (joins_exchanged h hstatement hstatement').2 join

include hs hfresh hrules in
/-- In one order no other rows are returned than in the other one. -/
theorem subset_exchanged (hp : (q.withRules rules).predicate = .ok p)
    (hp' : (q.withRules rules').predicate = .ok p')
    (hstatement : (q.withRules rules).joinedStatement p = .ok s)
    (hstatement' : (q.withRules rules').joinedStatement p' = .ok s')
    (hplain : p.isPlain = true) (hplain' : p'.isPlain = true)
    (hstored : ∀ t ∈ s.extraTables, t ∉ s'.extraTables → db.rows t ≠ [])
    {rows rows' : List (List Scalar)} (hrun : s.run db = .ok rows)
    (hrun' : s'.run db = .ok rows') : rows' ⊆ rows := by
  have hrules' := h.forall_mem hrules
  obtain ⟨hcombines, _, hmem⟩ :=
    joinedStatement_combines (q := q.withRules rules) hs hfresh hrules hp hplain hstatement
  obtain ⟨hcombines', _, hmem'⟩ :=
    joinedStatement_combines (q := q.withRules rules') hs hfresh hrules' hp' hplain' hstatement'
  obtain ⟨hentity, _⟩ := joins_exchanged h hstatement hstatement'
  refine Select.run_subset_of_eval hs hcombines hcombines' hentity (fun join => ?_)
    (fun σ htrue => (eval_exchanged h hrules hp hp' σ).trans htrue) hstored hrun hrun'
  rw [hmem, hmem', hentity]
  exact exists_congr fun rule => and_congr_left fun _ => h.perm.mem_iff

end Exchanged

/-- Rules with mappings on an entity that is no proxy may exchange two neighbours that both allow or
both deny. A statement is built in one order exactly if it is in the other, along the same paths and
joins and with repetitions dropped in both or in neither. Unless a filter holds parts of statements,
both statements return the same rows where each table that only one of them mentions without a join
has a row. With plain keys and data for values there is neither such a table nor such a part. -/
theorem exchanged_records (hs : q.schema.WellFormed) (hfresh : q.schema.HasFreshAliases)
    (hproxy : q.proxy? = none) (hrules : ∀ rule ∈ rules, rule.condition.isMergeable = true)
    (h : Exchanged rules rules') :
    (q.withRules rules).strategy = .merged ∧ (q.withRules rules').strategy = .merged ∧
    ((∃ built, (q.withRules rules).records = .ok built) ↔
      ∃ built, (q.withRules rules').records = .ok built) ∧
    ∀ built built', (q.withRules rules).records = .ok built →
      (q.withRules rules').records = .ok built' →
        ∃ s s', built.statement = .select s ∧ built'.statement = .select s' ∧
          (∀ path, path ∈ (built.joins.getD .nil).toTree.paths ↔
            path ∈ (built'.joins.getD .nil).toTree.paths) ∧
          s'.entity = s.entity ∧ (∀ join, join ∈ s.joins ↔ join ∈ s'.joins) ∧
          s.distinct = s'.distinct ∧
          (∀ db : Database, s.isPlain = true → s'.isPlain = true →
            (∀ t, (t ∈ s.extraTables ↔ t ∉ s'.extraTables) → db.rows t ≠ []) →
            ∀ rows rows', s.run db = .ok rows → s'.run db = .ok rows' →
              ∀ cells, cells ∈ rows ↔ cells ∈ rows') ∧
          ((∀ rule ∈ rules, rule.ComparesData) → s.isPlain = true ∧ s'.isPlain = true) ∧
          ((∀ rule ∈ rules, rule.HasPlainKeysAndData) →
            s.extraTables = [] ∧ s'.extraTables = []) := by
  have hrules' := h.forall_mem hrules
  refine ⟨strategy_exchanged h hproxy hrules, strategy_exchanged h.symm hproxy hrules',
    exists_records_exchanged h hproxy hrules, fun built built' hbuilt hbuilt' => ?_⟩
  obtain ⟨_, _, _, hlist⟩ := h.exists_cons_cons
  obtain ⟨_, _, _, hlist'⟩ := h.symm.exists_cons_cons
  rw [records_eq_mergedRecords (q := q.withRules rules) hproxy (by simp [withRules, hlist]) hrules,
    mergedRecords_eq_ok] at hbuilt
  rw [records_eq_mergedRecords (q := q.withRules rules') hproxy (by simp [withRules, hlist'])
    hrules', mergedRecords_eq_ok] at hbuilt'
  obtain ⟨p, s, hp, hstatement, rfl⟩ := hbuilt
  obtain ⟨p', s', hp', hstatement', rfl⟩ := hbuilt'
  obtain ⟨hentity, hjoins⟩ := joins_exchanged h hstatement hstatement'
  have hplain : s.isPlain = p.isPlain :=
    Select.isPlain_eq (joinedStatement_joins hstatement).2.1
  have hplain' : s'.isPlain = p'.isPlain :=
    Select.isPlain_eq (joinedStatement_joins hstatement').2.1
  refine ⟨s, s', rfl, rfl, fun path => ?_, hentity, hjoins,
    distinct_exchanged h hstatement hstatement', ?_, fun hdata => ?_, fun hplainData => ?_⟩
  · rw [mem_paths_joins, mem_paths_joins]
    exact exists_congr fun rule => and_congr_left fun _ => h.perm.mem_iff
  · intro db hsPlain hsPlain' hstored rows rows' hrun hrun' cells
    rw [hplain] at hsPlain
    rw [hplain'] at hsPlain'
    -- exchanging back is an exchange, so each direction is an inclusion
    constructor
    · refine fun hcells => subset_exchanged hs hfresh hrules' h.symm hp' hp hstatement' hstatement
        hsPlain' hsPlain (fun t ht ht' => hstored t ?_) hrun' hrun hcells
      simp [ht, ht']
    · refine fun hcells => subset_exchanged hs hfresh hrules h hp hp' hstatement hstatement'
        hsPlain hsPlain' (fun t ht ht' => hstored t ?_) hrun hrun' hcells
      simp [ht, ht']
  · rw [hplain, hplain']
    exact ⟨isPlain_of_comparesData (q := q.withRules rules) hrules hdata hp,
      isPlain_of_comparesData (q := q.withRules rules') hrules' (h.forall_mem hdata) hp'⟩
  · have hnoProxy := isProxy_eq_false hproxy
    exact ⟨(combines_of_plainKeysAndData (q := q.withRules rules) hs hnoProxy hplainData hp
        hstatement).2,
      (combines_of_plainKeysAndData (q := q.withRules rules') hs hnoProxy (h.forall_mem hplainData)
        hp' hstatement').2⟩

/-- Posts with an approved comment are readable and those by users of one organization, but no
unpublished ones. -/
def discussedRules : List Rule :=
  [Sample.readRule false "Post" (.literal "is_published" (.bool false) .nil),
    Sample.readRule true "Post"
      (.association "comments" (.literal "approved" (.bool true) .nil) .nil),
    Sample.readRule true "Post" (.association "author" (.literal "org_id" (.int 1) .nil) .nil)]

/-- The same rules, the allowing ones in the other order. -/
def discussedRules' : List Rule :=
  [Sample.readRule false "Post" (.literal "is_published" (.bool false) .nil),
    Sample.readRule true "Post" (.association "author" (.literal "org_id" (.int 1) .nil) .nil),
    Sample.readRule true "Post"
      (.association "comments" (.literal "approved" (.bool true) .nil) .nil)]

theorem discussed_exchanged : ∃ s s' p p' joins joins' rows rows',
    (Sample.reading "Post" discussedRules).records = .ok ⟨.select s, some p, joins⟩ ∧
      (Sample.reading "Post" discussedRules').records = .ok ⟨.select s', some p', joins'⟩ ∧
      joins ≠ joins' ∧ (∀ join, join ∈ s.joins ↔ join ∈ s'.joins) ∧
      s.run Sample.database = .ok rows ∧ s'.run Sample.database = .ok rows' ∧
      rows.length = 2 ∧ ∀ cells, cells ∈ rows ↔ cells ∈ rows' := by
  have hrules : ∀ rule ∈ discussedRules, rule.HasPlainKeysAndData := by
    intro rule hrule
    simp only [discussedRules, List.mem_cons, List.not_mem_nil, or_false] at hrule
    rcases hrule with rfl | rfl | rfl <;> exact ⟨_, rfl, rfl⟩
  have hrecords : (Sample.reading "Post" discussedRules).records = .ok _ := rfl
  have hrecords' : (Sample.reading "Post" discussedRules').records = .ok _ := rfl
  have hexchanged : Exchanged discussedRules discussedRules' := .later _ (.here (by rfl) [])
  obtain ⟨_, _, _, hboth⟩ := exchanged_records (q := Sample.reading "Post" [])
    Sample.wellFormed_schema Sample.hasFreshAliases_schema rfl
    (fun rule hrule => (hrules rule hrule).isMergeable) hexchanged
  obtain ⟨s, s', hs, hs', _, _, hjoins, _, hsame, hplain, hextra⟩ := hboth _ _ hrecords hrecords'
  obtain ⟨hisPlain, hisPlain'⟩ := hplain fun rule hrule => (hrules rule hrule).comparesData
  obtain ⟨hnone, hnone'⟩ := hextra hrules
  have hrows := hsame Sample.database hisPlain hisPlain' (by simp [hnone, hnone'])
  obtain rfl := Sql.Statement.select.inj hs
  obtain rfl := Sql.Statement.select.inj hs'
  exact ⟨_, _, _, _, _, _, _, _, hrecords, hrecords', by decide, hjoins, rfl, rfl,
    by decide +kernel, hrows _ _ rfl rfl⟩

/-! A constant may settle the filter before it comes to a table, and a comment in a text may cut it
short. Then the order counts. -/

/-- The first post is readable, each one with an author, and all of them if some category, of which
there is none, has a certain label. -/
def labelledRules : List Rule :=
  [Sample.readRule true "Post" (.literal "categories.label" (.str "x") .nil),
    Sample.readRule true "Post" (.association "author" .nil .nil),
    Sample.readRule true "Post" (.literal "id" (.int 1) .nil)]

def labelledRules' : List Rule :=
  [Sample.readRule true "Post" (.association "author" .nil .nil),
    Sample.readRule true "Post" (.literal "categories.label" (.str "x") .nil),
    Sample.readRule true "Post" (.literal "id" (.int 1) .nil)]

/-- Published posts are readable and the second one, whose number is given as text. -/
def annotatedRules : List Rule :=
  [Sample.readRule true "Post" (.literal "is_published" (.bool true) .nil),
    Sample.readRule true "Post" (.literal "id" (.expr (.fragment "2 --")) .nil)]

def annotatedRules' : List Rule :=
  [Sample.readRule true "Post" (.literal "id" (.expr (.fragment "2 --")) .nil),
    Sample.readRule true "Post" (.literal "is_published" (.bool true) .nil)]

theorem readsPosts_labelled : ReadsPosts labelledRules [] ∧
    ReadsPosts labelledRules' [.int 1, .int 2, .int 3, .int 4] :=
  ⟨⟨_, _, _, rfl, by decide +kernel⟩, ⟨_, _, _, rfl, by decide +kernel⟩⟩

theorem readsPosts_annotated : ReadsPosts annotatedRules [.int 1, .int 2, .int 3] := by
  refine ⟨_, _, _, rfl, ?_⟩
  have hnull : String.contains (postsWhere ++ "posts.is_published = 1 OR posts.id = 2 --")
      '\x00' = false := by cbv
  rw [Select.runKeys, Select.run_of_template rfl rfl (by cbv) rfl rfl (by decide +kernel) hnull,
    Sql.ReadQuery.ofText, hnull]
  decide +kernel

theorem readsPosts_annotated' : ReadsPosts annotatedRules' [.int 2] := by
  refine ⟨_, _, _, rfl, ?_⟩
  have hnull : String.contains (postsWhere ++ "posts.id = 2 -- OR posts.is_published = 1")
      '\x00' = false := by cbv
  rw [Select.runKeys, Select.run_of_template rfl rfl (by cbv) rfl rfl (by decide +kernel) hnull,
    Sql.ReadQuery.ofText, hnull]
  decide +kernel

/-- The rows depend on the order where a table without rows is mentioned without a join, and where a
value is given as text. -/
theorem exchange_changes_rows : (Sample.reading "Post" []).proxy? = none ∧
    (Exchanged labelledRules labelledRules' ∧
      (∀ rule ∈ labelledRules, rule.condition.isMergeable = true) ∧
      ReadsPosts labelledRules [] ∧
      ReadsPosts labelledRules' [.int 1, .int 2, .int 3, .int 4]) ∧
    Exchanged annotatedRules annotatedRules' ∧
      (∀ rule ∈ annotatedRules, rule.condition.isMergeable = true) ∧
      ReadsPosts annotatedRules [.int 1, .int 2, .int 3] ∧ ReadsPosts annotatedRules' [.int 2] :=
  ⟨rfl, ⟨.here (by rfl) _, by decide, readsPosts_labelled⟩, .here (by rfl) _, by decide,
    readsPosts_annotated, readsPosts_annotated'⟩

end Query

end RowPolicy
