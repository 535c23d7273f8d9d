import RowPolicy.Proofs.ProxyStatement
import RowPolicy.Sample.Queries

/-!
# One more denying rule

Where the conditions of rules are combined by precedence, a denying rule that is declared last
takes rows away and adds none: its statement is joined to more tables, and its filter is true for
fewer choices of rows. This does not hold of conditions that stand side by side, of a scope, or
of a proxy without other rules, nor of a value that is copied into the filter as text.
-/

namespace RowPolicy

open Sql (Assignment Database Expr Join Row Select Truth)

/-! ## Tables without entity -/

namespace Schema

variable {s : Schema} {entity key : String} {c : Sql.Column}

/-- Whether no column of a table without entity belongs to a linking table as it is joined. -/
def HasFreshAliases (s : Schema) : Prop :=
  ∀ entry ∈ s.tables, ∀ c ∈ entry.2, ¬ s.IsAlias c.table

/-- No reference names a column of a linking table as it is joined. -/
theorem not_isAlias_of_column (hs : s.WellFormed) (hfresh : s.HasFreshAliases)
    (h : s.column entity key = .ok c) : ¬ s.IsAlias c.table := by
  have hentity : ∀ e ∈ s.entities, ∀ c ∈ e.columns, ¬ s.IsAlias c.table := by
    intro e he c hc
    obtain ⟨a, _, rfl⟩ := List.mem_map.mp hc
    exact hs.not_isAlias he
  obtain ⟨e, he, hfound⟩ := column_eq_ok.mp h
  rcases hsplit : splitKey? key with _ | ⟨table, rest⟩ <;> rw [hsplit] at hfound
  · obtain ⟨a, _, rfl⟩ := Option.map_eq_some_iff.mp hfound
    exact hs.not_isAlias (lists_of_entity? he).mem
  · change s.qualifiedColumn? table rest = some c at hfound
    unfold qualifiedColumn? at hfound
    dsimp only at hfound
    split at hfound
    next stored hstored =>
      obtain ⟨a, _, rfl⟩ := Option.map_eq_some_iff.mp hfound
      exact hs.not_isAlias (List.mem_of_find?_eq_some hstored)
    next =>
      have hmem := List.mem_of_find?_eq_some hfound
      unfold columnsOf at hmem
      split at hmem
      next stored hstored => exact hentity stored (List.mem_of_find?_eq_some hstored) c hmem
      next =>
        cases htable : Entries.get? table s.tables with
        | none => simp [htable] at hmem
        | some columns =>
            rw [htable] at hmem
            exact hfresh _ (Entries.mem_of_get? htable) c hmem

end Schema

theorem Sample.hasFreshAliases_schema : Sample.schema.HasFreshAliases := by
  have hother : ∀ entry ∈ Sample.schema.tables, ∀ c ∈ entry.2,
      ¬ "post_tags_".toList <+: c.table.toList := by decide +kernel
  exact fun entry hentry c hc halias => hother entry hentry c hc (Sample.prefix_of_isAlias halias)

/-! ## Statements that choose fewer rows -/

namespace Sql.Select

variable {s s' : Select} {sch : Schema} {p p' : Expr} {db : Database}
  {rows rows' : List (List Scalar)}

/-- A statement returns no other rows than another one if for each of its choices the other one
combines rows as well and has a choice with the same row of the entity. -/
theorem run_subset (p : Expr) (hs : sch.WellFormed) (h' : s'.Combines sch p')
    (hentity : s'.entity = s.entity)
    (hchoices : ∀ choice', s'.IsChosen db choice' → p'.eval (.ofRows choice') = .yes →
      s.Combines sch p ∧ ∃ choice, s.IsChosen db choice ∧ p.eval (.ofRows choice) = .yes ∧
        choice s.entity.table = choice' s.entity.table)
    (hrun : s.run db = .ok rows) (hrun' : s'.run db = .ok rows') : rows' ⊆ rows := by
  obtain ⟨values, hpassed⟩ := exists_passed hrun
  obtain ⟨values', hpassed'⟩ := exists_passed hrun'
  obtain ⟨result', hresult', hmem'⟩ := h'.exists_run hs hpassed' db
  obtain rfl := Except.ok.inj (hrun'.symm.trans hresult')
  intro cells hcells
  obtain ⟨choice', hchosen', htrue', rfl⟩ := (hmem' cells).mp hcells
  obtain ⟨h, choice, hchosen, htrue, hrow⟩ := hchoices choice' hchosen' htrue'
  obtain ⟨result, hresult, hmem⟩ := h.exists_run hs hpassed db
  obtain rfl := Except.ok.inj (hrun.symm.trans hresult)
  exact (hmem _).mpr ⟨choice, hchosen, htrue, by rw [hrow, hentity]⟩

/-- A statement whose filter is never true returns no row. -/
theorem Combines.eq_nil (h : s.Combines sch p) (hs : sch.WellFormed)
    (hnever : ∀ σ, p.eval σ ≠ .yes) (hrun : s.run db = .ok rows) : rows = [] := by
  obtain ⟨values, hpassed⟩ := exists_passed hrun
  obtain ⟨result, hresult, hmem⟩ := h.exists_run hs hpassed db
  obtain rfl := Except.ok.inj (hrun.symm.trans hresult)
  rw [List.eq_nil_iff_forall_not_mem]
  intro cells hcells
  obtain ⟨choice, _, htrue, _⟩ := (hmem cells).mp hcells
  exact hnever _ htrue

/-- Where every choice meets the joins of a statement with more joins, each row it has is
stored. -/
theorem IsChosen.mem_rows {choice : String → Row} (h : s.IsChosen db choice)
    (hjoins : ∀ join ∈ s.distinctJoins, sch.HasJoin join) :
    ∀ t ∈ s.tables, choice t ∈ db.rows t := by
  intro t ht
  rcases List.mem_append.mp ht with hjoined | hextra
  · rcases List.mem_cons.mp hjoined with rfl | hjoined
    · exact h.1
    · obtain ⟨join, hjoin, rfl⟩ := List.mem_map.mp hjoined
      have hchosen := h.2.1 join hjoin
      obtain ⟨source, name, r, target, rfl, _⟩ := hjoins join hjoin
      exact hchosen.1
  · exact h.2.2 t hextra

end Sql.Select

/-! ## One more rule -/

namespace Sql.Expr

variable {acc acc' : Expr} {condition : Option Expr} {σ : Assignment}

/-- Whether a filter that was narrowed has the former one as a part: that one is true as well, its
tables are still mentioned, and it is plain if the whole is. -/
structure IsPartOf (acc acc' : Expr) (σ : Assignment) : Prop where
  eval_eq : acc.eval σ = .yes
  tables_subset : acc.tables ⊆ acc'.tables
  isPlain : acc'.isPlain = true → acc.isPlain = true

/-- A true conjunction has its second condition as a part. -/
theorem isPartOf_conjunction {l r : Expr} (hl : l.IsCondition) (hr : r.IsCondition)
    (htrue : (conjunction [l, r]).eval σ = .yes) : r.IsPartOf (conjunction [l, r]) σ := by
  obtain ⟨htables, hplain⟩ := parts_conjunction_pair hl hr htrue r (by simp)
  rw [eval_conjunction_pair hl hr, Truth.and_eq_yes] at htrue
  exact ⟨htrue.2, htables, hplain⟩

/-- A filter that is true after one more denying rule has the filter before as a part. -/
theorem override_deny (hacc : acc.IsCondition) (hcondition : ∀ e ∈ condition, e.IsCondition)
    (h : acc.override false condition = .ok acc') (htrue : acc'.eval σ = .yes) :
    acc.IsPartOf acc' σ := by
  rcases override_cases h with ⟨_, rfl⟩ | ⟨e, rfl, hcases⟩
  · cases htrue
  rcases hcases with ⟨_, hallow, _⟩ | ⟨rfl, _, _⟩ | ⟨_, hallow, _⟩ | ⟨_, _, rfl⟩ | ⟨hallow, _⟩ |
    ⟨_, opposite, hopposite, rfl⟩
  · cases hallow
  · exact ⟨rfl, by simp [Expr.tables], fun _ => rfl⟩
  · cases hallow
  · cases htrue
  · cases hallow
  · exact isPartOf_conjunction (kept_isCondition.negated (hcondition e rfl) hopposite) hacc htrue

end Sql.Expr

namespace Query

variable {q : Query} {deny : Rule} {s s' : Select} {p p' : Expr} {db : Database}

/-- The query with one more rule, which is declared last. -/
def declare (q : Query) (rule : Rule) : Query := { q with rules := rule :: q.rules }

/-- The filter of mappings is their combination, also if there is a single allowing rule. -/
theorem combined_of_predicate (hrules : ∀ rule ∈ q.rules, rule.condition.isMergeable = true)
    (h : q.predicate = .ok p) : q.combined = .ok p := by
  rcases predicate_cases hrules h with hcombined | ⟨rule, condition, hlist, hallow, hexpr, rfl⟩
  · exact hcombined
  · rw [combined_eq, hlist, List.foldrM_cons, List.foldrM_nil]
    simp only [pure, Except.pure, bind, Except.bind, hexpr, hallow]
    cases condition <;> rfl

/-- A filter that is true after one more denying rule has the filter before as a part. -/
theorem predicate_deny (hdeny : deny.allow = false)
    (hrules : ∀ rule ∈ (q.declare deny).rules, rule.condition.isMergeable = true)
    (h : q.predicate = .ok p) (h' : (q.declare deny).predicate = .ok p') {σ : Assignment}
    (htrue : p'.eval σ = .yes) : p.IsPartOf p' σ := by
  obtain ⟨hmergeable, hothers⟩ := List.forall_mem_cons.mp hrules
  have hcombined := combined_of_predicate hothers h
  have hcombined' := combined_of_predicate hrules h'
  rw [combined_eq] at hcombined hcombined'
  change (deny :: q.rules).foldrM _ _ = _ at hcombined'
  rw [List.foldrM_cons] at hcombined'
  obtain ⟨acc, hacc, hstep⟩ := Outcome.bind_eq_ok.mp hcombined'
  obtain rfl : acc = p := Except.ok.inj (hacc.symm.trans hcombined)
  obtain ⟨condition, hexpr, hoverride⟩ := Outcome.bind_eq_ok.mp hstep
  rw [hdeny, liftFilter_eq_ok] at hoverride
  have hcondition : acc.IsCondition := predicate_kept Expr.kept_isCondition hothers h
    fun rule hrule _ hexpr => ruleExpr_isCondition (hothers rule hrule) hexpr
  exact Expr.override_deny hcondition (ruleExpr_isCondition hmergeable hexpr) hoverride htrue

/-- The combination of rules that all deny is the constant false. -/
theorem combined_eq_const (hdeny : ∀ rule ∈ q.rules, rule.allow = false)
    (h : q.combined = .ok p) : p = .const false := by
  rw [combined_eq] at h
  generalize q.rules = rules at h hdeny
  induction rules generalizing p with
  | nil => exact (Outcome.pure_eq_ok.mp h).symm
  | cons rule rest ih =>
      obtain ⟨hrule, hrest⟩ := List.forall_mem_cons.mp hdeny
      rw [List.foldrM_cons] at h
      obtain ⟨acc, hacc, hstep⟩ := Outcome.bind_eq_ok.mp h
      obtain rfl := ih hacc hrest
      obtain ⟨condition, _, hoverride⟩ := Outcome.bind_eq_ok.mp hstep
      rw [liftFilter_eq_ok, hrule] at hoverride
      cases condition <;> exact (Except.ok.inj hoverride).symm

/-! ### Merged rules -/

/-- The filter for merged rules that compare with data is plain. -/
theorem isPlain_of_comparesData (hrules : ∀ rule ∈ q.rules, rule.condition.isMergeable = true)
    (hdata : ∀ rule ∈ q.rules, rule.ComparesData) (hp : q.predicate = .ok p) :
    p.isPlain = true := by
  refine (predicate_kept Expr.kept_isPlain hrules hp fun rule hrule condition hexpr => ?_).2
  obtain ⟨tree, htree⟩ := Condition.exists_tree (hrules rule hrule)
  refine ruleExpr_kept Expr.kept_isPlain htree hexpr fun flat hflat entry hentry part hpart => ?_
  obtain ⟨c, _, hpart⟩ := Schema.entryExpr_eq_ok.mp hpart
  exact ((Value.leaf_keepsTo hpart).of_data
    (Naming.isData_of_flatten (hdata rule hrule tree htree) hflat hentry)).1

/-- A plain filter for merged rules mentions no linking table as it is joined. -/
theorem not_isAlias_of_predicate (hs : q.schema.WellFormed) (hfresh : q.schema.HasFreshAliases)
    (hrules : ∀ rule ∈ q.rules, rule.condition.isMergeable = true) (hp : q.predicate = .ok p)
    (hplain : p.isPlain = true) : ∀ t ∈ p.tables, ¬ q.schema.IsAlias t := by
  have hkept := Expr.kept_plain_tables fun t => ¬ q.schema.IsAlias t
  refine (predicate_kept hkept hrules hp fun rule hrule condition hexpr => ?_).2 hplain
  obtain ⟨tree, htree⟩ := Condition.exists_tree (hrules rule hrule)
  refine ruleExpr_kept hkept htree hexpr fun flat _ entry _ part hpart => ?_
  obtain ⟨c, hcolumn, hpart⟩ := Schema.entryExpr_eq_ok.mp hpart
  have hentry := Value.leaf_keepsTo hpart
  refine ⟨hentry.isCondition, fun hplain t ht => ?_⟩
  obtain rfl := List.mem_singleton.mp (hentry.tables hplain t ht)
  exact Schema.not_isAlias_of_column hs hfresh hcolumn

/-- The statement for merged rules combines rows along their associations if its filter is
plain. -/
theorem joinedStatement_combines (hs : q.schema.WellFormed) (hfresh : q.schema.HasFreshAliases)
    (hrules : ∀ rule ∈ q.rules, rule.condition.isMergeable = true) (hp : q.predicate = .ok p)
    (hplain : p.isPlain = true) (h : q.joinedStatement p = .ok s) :
    s.Combines q.schema p ∧ (∀ join ∈ s.distinctJoins, q.schema.HasJoin join) ∧
      ∀ join, join ∈ s.distinctJoins ↔ ∃ rule ∈ q.rules, ∃ path,
        rule.condition.associations.Leads q.schema join s.entity path := by
  obtain ⟨hentity, hfilter, hmem, horder⟩ := joinedStatement_spec h
  have hjoins := joinedStatement_hasJoin h
  obtain ⟨hsame, hdistinct⟩ := Select.distinctJoins_spec hjoins horder
  have hdistinctJoins : ∀ join ∈ s.distinctJoins, q.schema.HasJoin join :=
    fun join hjoin => hjoins join ((hsame join).mp hjoin)
  have halias := not_isAlias_of_predicate hs hfresh hrules hp hplain
  exact ⟨⟨hfilter, hplain, Sql.JoinStep.canJoinAll_of_inOrder hdistinctJoins hdistinct,
    fun t ht => halias t ((Select.mem_extraTables hfilter).mp ht).1⟩, hdistinctJoins,
    fun join => (hsame join).trans (hmem join)⟩

section Merged

variable (hs : q.schema.WellFormed) (hfresh : q.schema.HasFreshAliases)
  (hrules : ∀ rule ∈ (q.declare deny).rules, rule.condition.isMergeable = true)
  (hp' : (q.declare deny).predicate = .ok p') (hs' : (q.declare deny).joinedStatement p' = .ok s')
include hs hfresh hrules hp' hs'

/-- One more denying rule adds no row to those of merged rules. -/
theorem merged_subset (hplain' : p'.isPlain = true) (hdeny : deny.allow = false)
    (hp : q.predicate = .ok p) (hstatement : q.joinedStatement p = .ok s)
    {rows rows' : List (List Scalar)} (hrun : s.run db = .ok rows)
    (hrun' : s'.run db = .ok rows') : rows' ⊆ rows := by
  obtain ⟨hentity, _⟩ := joinedStatement_spec hstatement
  obtain ⟨hentity', _⟩ := joinedStatement_spec hs'
  have hsame : s'.entity = s.entity := Option.some.inj (hentity'.symm.trans hentity)
  have hothers := fun rule hrule => hrules rule (List.mem_cons_of_mem deny hrule)
  obtain ⟨hcombines', hjoins', hmem'⟩ :=
    joinedStatement_combines (q := q.declare deny) hs hfresh hrules hp' hplain' hs'
  refine Select.run_subset p hs hcombines' hsame (fun choice hchosen htrue => ?_) hrun hrun'
  -- a filter that becomes true has the former one as a part, which then is plain as well
  obtain ⟨hbefore, htables, hplain⟩ := predicate_deny hdeny hrules hp hp' htrue
  obtain ⟨hcombines, _, hmem⟩ :=
    joinedStatement_combines hs hfresh hothers hp (hplain hplain') hstatement
  -- the former joins are among the latter, and a table that only the former filter mentions
  -- may be joined by now, but has a stored row in either case
  refine ⟨hcombines, choice, ⟨hsame ▸ hchosen.1, fun join hjoin => ?_, fun t ht => ?_⟩, hbefore,
    rfl⟩
  · obtain ⟨rule, hrule, path, hleads⟩ := (hmem join).mp hjoin
    refine hchosen.2.1 join ((hmem' join).mpr ⟨rule, List.mem_cons_of_mem _ hrule, path, ?_⟩)
    rw [hsame]
    exact hleads
  · have hmentioned := ((Select.mem_extraTables hcombines.filter_eq).mp ht).1
    exact hchosen.mem_rows hjoins' t
      (Select.mem_tables_of_filter hcombines'.filter_eq t (htables hmentioned))

/-- Merged rules that all deny return no row, whatever they compare with. -/
theorem merged_eq_nil (hdeny : ∀ rule ∈ (q.declare deny).rules, rule.allow = false)
    {rows' : List (List Scalar)} (hrun' : s'.run db = .ok rows') : rows' = [] := by
  obtain rfl := combined_eq_const hdeny (combined_of_predicate hrules hp')
  obtain ⟨hcombines', _⟩ :=
    joinedStatement_combines (q := q.declare deny) hs hfresh hrules hp' rfl hs'
  exact hcombines'.eq_nil hs (by simp [Expr.eval]) hrun'

end Merged

/-! ### Rules on a proxy -/

/-- The statement for a proxy combines rows of subjects if its filter is plain. -/
theorem IsProxied.combines (h : q.IsProxied s p) (hs : q.schema.WellFormed)
    (hplain : p.isPlain = true) {rows : List (List Scalar)} (hrun : s.run db = .ok rows) :
    s.Combines q.schema p ∧ s.extraTables = [] := by
  obtain ⟨values, hpassed⟩ := Select.exists_passed hrun
  have hextra : s.extraTables = [] := by
    refine Select.extraTables_eq_nil h.filter_eq fun t ht => ?_
    rw [Select.joinedTables, h.distinctJoins_eq]
    exact List.mem_cons_of_mem _ ((h.filter_keepsTo hs.table_plain).tables hplain t ht)
  exact ⟨⟨h.filter_eq, hplain, h.canJoinAll (Select.tables_of_passed hpassed).2, by simp [hextra]⟩,
    hextra⟩

/-- A filter on the subjects that is true after one more denying rule has the filter before as a
part. -/
theorem subjectPredicate_deny (hne : q.rules ≠ []) (hdeny : deny.allow = false)
    (hrules : ∀ rule ∈ (q.declare deny).rules, rule.condition.isMergeable = true)
    (h : q.subjectPredicate = .ok p) (h' : (q.declare deny).subjectPredicate = .ok p')
    {σ : Assignment} (htrue : p'.eval σ = .yes) : p.IsPartOf p' σ := by
  obtain ⟨hmergeable, hothers⟩ := List.forall_mem_cons.mp hrules
  have hcombined := combinedGuarded_of_subjectPredicate hne h
  have hcombined' := combinedGuarded_of_subjectPredicate (List.cons_ne_nil deny q.rules) h'
  rw [combinedGuarded_eq] at hcombined hcombined'
  change (deny :: q.rules).foldrM _ _ = _ at hcombined'
  rw [List.foldrM_cons] at hcombined'
  obtain ⟨acc, hacc, hstep⟩ := Outcome.bind_eq_ok.mp hcombined'
  obtain rfl : acc = some p := Except.ok.inj (hacc.symm.trans hcombined)
  obtain ⟨guarded, hguarded, hoverride⟩ := Outcome.bind_eq_ok.mp hstep
  simp only [Outcome.map_eq_ok, liftFilter_eq_ok, Option.some.injEq, exists_eq_right] at hoverride
  have hcondition : p.IsCondition := subjectPredicate_kept Expr.kept_isCondition h
    fun rule hrule e he => guardedExpr_isCondition (hothers rule hrule) he
  have hpart : guarded.IsCondition := guardedExpr_isCondition hmergeable hguarded
  rcases Expr.overrideGuarded_cases hoverride with ⟨hnone, _⟩ | ⟨before, hbefore, hcases⟩
  · cases hnone
  obtain rfl := Option.some.inj hbefore
  rcases hcases with ⟨hallow, _⟩ | ⟨_, opposite, hopposite, rfl⟩
  · rw [hdeny] at hallow
    cases hallow
  · exact Expr.isPartOf_conjunction (Expr.kept_isCondition.negated hpart hopposite) hcondition htrue

/-- One more denying rule adds no row to those of other rules on a proxy. -/
theorem proxied_subset (hs : q.schema.WellFormed) (hplain' : p'.isPlain = true)
    (hne : q.rules ≠ []) (hdeny : deny.allow = false) (h : q.IsProxied s p)
    (h' : (q.declare deny).IsProxied s' p') {rows rows' : List (List Scalar)}
    (hrun : s.run db = .ok rows) (hrun' : s'.run db = .ok rows') : rows' ⊆ rows := by
  have hsame : s'.entity = s.entity := Option.some.inj (h'.entity_eq.symm.trans h.entity_eq)
  obtain ⟨hcombines', _⟩ := h'.combines hs hplain' hrun'
  refine Select.run_subset p hs hcombines' hsame (fun choice hchosen htrue => ?_) hrun hrun'
  obtain ⟨hbefore, _, hplain⟩ :=
    subjectPredicate_deny hne hdeny h'.mergeable h.predicate_eq h'.predicate_eq htrue
  obtain ⟨hcombines, hextra⟩ := h.combines hs (hplain hplain') hrun
  refine ⟨hcombines, choice, ⟨hsame ▸ hchosen.1, fun join hjoin => hchosen.2.1 join ?_,
    by simp [hextra]⟩, hbefore, rfl⟩
  rw [h.distinctJoins_eq, h.mem_joins] at hjoin
  obtain ⟨rule, hrule, hjoins⟩ := hjoin
  rw [h'.distinctJoins_eq, h'.mem_joins]
  exact ⟨rule, List.mem_cons_of_mem _ hrule, hjoins⟩

/-! ### All strategies -/

/-- Without a scope the strategy depends on the kind of the entity and of the conditions. -/
theorem strategy_of_scopes (hscopes : q.scopes = []) (hne : q.rules ≠ []) : q.strategy =
    if q.isProxy then .proxy else if q.isMergeable then .merged else .fallback := by
  have hempty : q.rules.isEmpty = false := by simpa using hne
  simp [strategy, hscopes, hempty]

/-- A scope beside another rule is refused. -/
theorem scopes_eq_nil_of_records {rule next : Rule} {rest : List Rule}
    (hrules : q.rules = rule :: next :: rest) {records : Records} (h : q.records = .ok records) :
    q.scopes = [] := by
  unfold Query.records at h
  obtain ⟨body, hbody, _⟩ := Outcome.bind_eq_ok.mp h
  unfold scopeBody at hbody
  rw [hrules] at hbody
  cases hscopes : q.scopes with
  | nil => rfl
  | cons first more =>
      rw [hscopes] at hbody
      simp only [Outcome.bind_eq_ok] at hbody
      obtain ⟨_, _, _, _, hthrow⟩ := hbody
      cases hthrow

section Records

variable (hs : q.schema.WellFormed) (hdeny : deny.allow = false) {before after : Records}
  (hbefore : q.records = .ok before) (hafter : (q.declare deny).records = .ok after)
include hs hdeny hbefore hafter

/-- One more denying rule adds no row to those of a proxy with other rules, if the filter is plain,
as it is for data. -/
theorem proxy_never_grants {field : ProxyField} (hproxy : q.proxy? = some field)
    (hne : q.rules ≠ []) (hscopes : (q.declare deny).scopes = []) (hothers : q.scopes = []) :
    ∃ s s', before.statement = .select s ∧ after.statement = .select s' ∧
      ((∀ rule ∈ (q.declare deny).rules, rule.ComparesData) → s'.isPlain = true) ∧
      (s'.isPlain = true → ∀ db rows rows', s.run db = .ok rows → s'.run db = .ok rows' →
        rows' ⊆ rows) := by
  have hcons : (q.declare deny).rules ≠ [] := List.cons_ne_nil deny q.rules
  obtain ⟨s, p, hstatement, h⟩ := exists_proxyStatement hproxy hne hothers hbefore
  obtain ⟨s', p', hstatement', h'⟩ :=
    exists_proxyStatement (q := q.declare deny) hproxy hcons hscopes hafter
  have hplain : s'.isPlain = p'.isPlain := Select.isPlain_eq h'.filter_eq
  refine ⟨s, s', hstatement, hstatement', hplain ▸ (h'.filter_keepsTo hs.table_plain).isPlain,
    fun hplain' db rows rows' hrun hrun' => ?_⟩
  exact proxied_subset hs (hplain ▸ hplain') hne hdeny h h' hrun hrun'

/-- One more denying rule adds no row where all conditions are mappings, if the filter is plain, as
it is for data, and there is none if no rule allows. -/
theorem merged_never_grants (hfresh : q.schema.HasFreshAliases) (hproxy : q.proxy? = none)
    (hrules : ∀ rule ∈ (q.declare deny).rules, rule.condition.isMergeable = true) :
    ∃ s s', before.statement = .select s ∧ after.statement = .select s' ∧
      ((∀ rule ∈ (q.declare deny).rules, rule.ComparesData) → s'.isPlain = true) ∧
      (s'.isPlain = true → ∀ db rows rows', s.run db = .ok rows → s'.run db = .ok rows' →
        rows' ⊆ rows) ∧
      ((∀ rule ∈ q.rules, rule.allow = false) → ∀ db rows', s'.run db = .ok rows' →
        rows' = []) := by
  obtain ⟨_, hothers⟩ := List.forall_mem_cons.mp hrules
  rw [records_eq_mergedRecords (q := q.declare deny) hproxy (List.cons_ne_nil deny q.rules) hrules,
    mergedRecords_eq_ok] at hafter
  obtain ⟨p', s', hp', hs', rfl⟩ := hafter
  have hdata : (∀ rule ∈ (q.declare deny).rules, rule.ComparesData) → s'.isPlain = true := by
    rw [Select.isPlain_eq (joinedStatement_spec hs').2.1]
    exact fun hdata => isPlain_of_comparesData hrules hdata hp'
  have hnone : (∀ rule ∈ q.rules, rule.allow = false) → ∀ db rows', s'.run db = .ok rows' →
      rows' = [] :=
    fun hdenied db rows' hrun' => merged_eq_nil hs hfresh hrules hp' hs'
      (List.forall_mem_cons.mpr ⟨hdeny, hdenied⟩) hrun'
  by_cases hne : q.rules = []
  · obtain ⟨e, _, hstatement⟩ := exists_emptyStatement hne hbefore
    refine ⟨_, s', hstatement, rfl, hdata, fun _ db rows rows' _ hrun' => ?_, hnone⟩
    simp [hnone (by simp [hne]) db rows' hrun']
  · rw [records_eq_mergedRecords hproxy hne hothers, mergedRecords_eq_ok] at hbefore
    obtain ⟨p, s, hp, hstatement, rfl⟩ := hbefore
    refine ⟨s, s', rfl, rfl, hdata, fun hplain' db rows rows' hrun hrun' => ?_, hnone⟩
    rw [Select.isPlain_eq (joinedStatement_spec hs').2.1] at hplain'
    exact merged_subset hs hfresh hrules hp' hs' hplain' hdeny hp hstatement hrun hrun'

end Records

/-- One more denying rule, declared last, adds no row where the rules are combined by precedence:
where conditions do not stand side by side and, if there is no other rule, where it is no scope
and the entity no proxy. Nothing in the filter may be given as text or taken from another
statement, and nothing is if the rules compare with data. Merged rules that all deny return no
row in any case. -/
theorem deny_never_grants (hs : q.schema.WellFormed) (hfresh : q.schema.HasFreshAliases)
    (hdeny : deny.allow = false) (hstrategy : (q.declare deny).strategy ≠ .fallback)
    (hfirst : q.rules = [] → (q.declare deny).strategy = .merged) {before after : Records}
    (hbefore : q.records = .ok before) (hafter : (q.declare deny).records = .ok after) :
    ∃ s s', before.statement = .select s ∧ after.statement = .select s' ∧
      ((∀ rule ∈ (q.declare deny).rules, rule.ComparesData) → s'.isPlain = true) ∧
      (s'.isPlain = true → ∀ db rows rows', s.run db = .ok rows → s'.run db = .ok rows' →
        rows' ⊆ rows) ∧
      ((q.declare deny).strategy = .merged → (∀ rule ∈ q.rules, rule.allow = false) →
        ∀ db rows', s'.run db = .ok rows' → rows' = []) := by
  -- a scope would be the only rule, but then the strategy is not to merge
  have hscopes : (q.declare deny).scopes = [] := by
    cases hlist : q.rules with
    | nil =>
        have hmerged := hfirst hlist
        unfold strategy at hmerged
        split at hmerged
        next => cases hmerged
        next hempty => simpa using hempty
    | cons next rest => exact scopes_eq_nil_of_records (by rw [declare, hlist]) hafter
  have hothers : q.scopes = [] := by
    rw [scopes, List.filterMap_eq_nil_iff] at hscopes ⊢
    exact fun rule hrule => hscopes rule (List.mem_cons_of_mem _ hrule)
  have hcons : (q.declare deny).rules ≠ [] := List.cons_ne_nil deny q.rules
  cases hproxy : q.proxy? with
  | some field =>
      have hisProxy : (q.declare deny).isProxy = true := congrArg Option.isSome hproxy
      have hproxied : (q.declare deny).strategy = .proxy := by
        rw [strategy_of_scopes hscopes hcons, if_pos hisProxy]
      have hne : q.rules ≠ [] := by
        intro hnil
        rw [hfirst hnil] at hproxied
        cases hproxied
      obtain ⟨s, s', hstatement, hstatement', hdata, hsubset⟩ :=
        proxy_never_grants hs hdeny hbefore hafter hproxy hne hscopes hothers
      refine ⟨s, s', hstatement, hstatement', hdata, hsubset, ?_⟩
      rw [hproxied]
      intro hmerged
      cases hmerged
  | none =>
      have hisProxy : (q.declare deny).isProxy = false := congrArg Option.isSome hproxy
      have hmergeable : (q.declare deny).isMergeable = true := by
        by_contra hnot
        refine hstrategy ?_
        rw [strategy_of_scopes hscopes hcons, hisProxy, if_neg (by simp), if_neg hnot]
      obtain ⟨s, s', hstatement, hstatement', hdata, hsubset, hnone⟩ :=
        merged_never_grants hs hdeny hbefore hafter hfresh hproxy
          (by simpa [isMergeable] using hmergeable)
      exact ⟨s, s', hstatement, hstatement', hdata, hsubset, fun _ => hnone⟩

/-- The published posts are readable. -/
def publishedReading : Query := Sample.reading "Post"
  [Sample.readRule true "Post" (.literal "is_published" (.bool true) .nil)]

/-- No post by a banned user is readable. -/
def bannedDenied : Rule :=
  Sample.readRule false "Post" (.association "author" (.literal "banned" (.bool true) .nil) .nil)

theorem bannedDenied_never_grants : ∃ before after s s' rows rows',
    publishedReading.records = .ok before ∧
      (publishedReading.declare bannedDenied).records = .ok after ∧
      before.statement = .select s ∧ after.statement = .select s' ∧
      s.run Sample.database = .ok rows ∧ s'.run Sample.database = .ok rows' ∧
      rows' = [[.int 1, .str "Public Post", .bool true, .int 1]] ∧ rows' ⊆ rows := by
  have hbefore : publishedReading.records = .ok _ := rfl
  have hafter : (publishedReading.declare bannedDenied).records = .ok _ := rfl
  obtain ⟨s, s', hs, hs', _, hnever, _⟩ := deny_never_grants Sample.wellFormed_schema
    Sample.hasFreshAliases_schema rfl (by decide) (by simp [publishedReading, Sample.reading])
    hbefore hafter
  obtain rfl := Sql.Statement.select.inj hs
  obtain rfl := Sql.Statement.select.inj hs'
  exact ⟨_, _, _, _, _, _, hbefore, hafter, rfl, rfl, rfl, rfl, rfl,
    hnever rfl Sample.database _ _ rfl rfl⟩

/-- Whether a row is returned with one more rule that is not returned without it; rows are told
apart by their keys. -/
def Gains (q : Query) (rule : Rule) (db : Database) : Prop :=
  ∃ before after s s' keys keys', q.records = .ok before ∧
    (q.declare rule).records = .ok after ∧ before.statement = .select s ∧
    after.statement = .select s' ∧ s.runKeys db = .ok keys ∧ s'.runKeys db = .ok keys' ∧
    ¬ keys' ⊆ keys

/-- The published posts are readable by a condition that is given as an expression. -/
def publishedFragment : Query := Sample.reading "Post"
  [⟨true, ["read"], [.kind "Post"],
    .fragment (.expr (.compare .eq ⟨"posts", "is_published", .truth⟩ (.truth true)))⟩]

/-- The first post is readable. -/
def firstReading : Query :=
  Sample.reading "Post" [Sample.readRule true "Post" (.literal "id" (.int 1) .nil)]

/-- No post is readable whose number equals a text, which closes a parenthesis that it did not
open. -/
def closingDenied : Rule :=
  Sample.readRule false "Post" (.literal "id" (.expr (.fragment "posts.id) OR (1")) .nil)

/-- The text ends the condition that was to be denied, and all posts are readable. -/
theorem closingDenied_gains : firstReading.Gains closingDenied Sample.database := by
  refine ⟨_, _, _, _, [.int 1], [.int 1, .int 2, .int 3, .int 4], rfl, rfl, rfl, rfl,
    by decide +kernel, ?_, by decide⟩
  dsimp only
  have hnull : String.contains
      (postsWhere ++ "(posts.id = posts.id) OR (1) IS NOT 1 AND posts.id = ?") '\x00' = false := by
    cbv
  rw [Select.runKeys, Select.run_of_template rfl rfl (by cbv) rfl rfl (by decide +kernel) hnull,
    Sql.ReadQuery.ofText, hnull]
  decide +kernel

/-- A denying rule adds rows where conditions stand side by side, where it is a scope and where
it is the only rule of a proxy, and also among merged rules if a text is copied into the filter. -/
theorem denial_gains :
    publishedFragment.Gains (Sample.readRule false "Post" (.literal "id" (.int 2) .nil))
      Sample.database ∧
    (Sample.reading "Post" []).Gains
      ⟨false, ["read"], [.kind "Post"], .scope (.rows Sample.post none)⟩ Sample.database ∧
    (Sample.reading "Activity" []).Gains
      ⟨false, ["read"], [.kind "Post", .kind "Activity"], .mapping .nil⟩ Sample.database ∧
    (firstReading.declare closingDenied).strategy = .merged ∧
      firstReading.Gains closingDenied Sample.database := by
  refine ⟨⟨_, _, _, _, _, _, rfl, rfl, rfl, rfl, rfl, rfl, ?_⟩,
    ⟨_, _, _, _, _, _, rfl, rfl, rfl, rfl, rfl, rfl, ?_⟩,
    ⟨_, _, _, _, _, _, rfl, rfl, rfl, rfl, rfl, rfl, ?_⟩, rfl, closingDenied_gains⟩ <;>
    decide +kernel

end Query

end RowPolicy
