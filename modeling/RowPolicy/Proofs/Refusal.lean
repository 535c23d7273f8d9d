import RowPolicy.Proofs.Accessible
import RowPolicy.Proofs.SubjectDecision
import RowPolicy.Sample.Queries

/-!
# Refused queries

Rules may clash: a scope stands beside another rule, a proxy has rules that are no mappings or
have associations, or conditions would stand side by side where that is not wanted. A query fails
for its rules exactly where they clash, or where there are none and one is demanded. Any other
failure is about a part of its statement.
-/

namespace RowPolicy

open Sql (Select)

/-! ## The errors of a computation -/

namespace Outcome

variable {ε α β : Type} {P Q : ε → Prop} {x : Except ε α}

/-- Whether every error that a computation may end in satisfies `P`. -/
def FailsOnly (P : ε → Prop) (x : Except ε α) : Prop := ∀ e, x = .error e → P e

namespace FailsOnly

theorem ok (a : α) : FailsOnly P (.ok a : Except ε α) := by
  intro e h
  cases h

theorem error {e : ε} (h : P e) : FailsOnly P (.error e : Except ε α) := by
  rintro _ ⟨⟩
  exact h

theorem mono (hx : FailsOnly P x) (h : ∀ e, P e → Q e) : FailsOnly Q x :=
  fun e he => h e (hx e he)

theorem bind {f : α → Except ε β} (hx : FailsOnly P x)
    (hf : ∀ a, x = .ok a → FailsOnly P (f a)) : FailsOnly P (x >>= f) := by
  cases x with
  | error e => exact error (hx e rfl)
  | ok a => exact hf a rfl

theorem map {f : α → β} (hx : FailsOnly P x) : FailsOnly P (f <$> x) := by
  cases x with
  | error e => exact error (hx e rfl)
  | ok a => exact ok (f a)

theorem mapM {f : α → Except ε β} {as : List α} (h : ∀ a ∈ as, FailsOnly P (f a)) :
    FailsOnly P (as.mapM f) := by
  induction as with
  | nil => exact ok []
  | cons a rest ih =>
      obtain ⟨hhere, hrest⟩ := List.forall_mem_cons.mp h
      rw [List.mapM_cons]
      exact hhere.bind fun b _ => (ih hrest).bind fun bs _ => ok (b :: bs)

theorem foldlM {f : β → α → Except ε β} {as : List α} (h : ∀ a ∈ as, ∀ b, FailsOnly P (f b a))
    (start : β) : FailsOnly P (as.foldlM f start) := by
  induction as generalizing start with
  | nil => exact ok start
  | cons a rest ih =>
      obtain ⟨hhere, hrest⟩ := List.forall_mem_cons.mp h
      rw [List.foldlM_cons]
      exact (hhere start).bind fun b _ => ih hrest b

end FailsOnly

end Outcome

open Outcome (FailsOnly)

/-- Whether an error is about a part of a statement, a condition or a table, and not about how
the rules stand together. -/
def QueryError.IsOfPart : QueryError → Prop
  | .filter _ | .notStored _ => True
  | .unmergeable _ _ _ _ | .noRules _ _ | .noAction | .noSubject | .emptyScope => False

/-- Whether an error is about a part that was given, and not about the opposite of a text. -/
def QueryError.IsOfGivenPart : QueryError → Prop
  | .filter e => e ≠ .fragmentNegated
  | .notStored _ => True
  | .unmergeable _ _ _ _ | .noRules _ _ | .noAction | .noSubject | .emptyScope => False

theorem QueryError.IsOfGivenPart.isOfPart {e : QueryError} (h : e.IsOfGivenPart) : e.IsOfPart := by
  cases e with
  | filter e => trivial
  | notStored entity => trivial
  | unmergeable action subject rules conflict => exact h
  | noRules action subject => exact h
  | noAction => exact h
  | noSubject => exact h
  | emptyScope => exact h

theorem failsOnly_liftFilter {α : Type} {x : Except FilterError α}
    (hx : FailsOnly (· ≠ .fragmentNegated) x) :
    FailsOnly QueryError.IsOfGivenPart (liftFilter x) := by
  cases x with
  | error e => exact .error (hx e rfl)
  | ok a => exact .ok a

theorem failsOnly_liftSchema {α : Type} (x : Except SchemaError α) :
    FailsOnly (· ≠ .fragmentNegated) (liftSchema x) := by
  cases x with
  | error e => exact .error (by simp)
  | ok a => exact .ok a

theorem failsOnly_liftLookup {α : Type} (x : Except SchemaError α) :
    FailsOnly QueryError.IsOfGivenPart (liftLookup x) :=
  failsOnly_liftFilter (failsOnly_liftSchema x)

theorem QueryError.isOfGivenPart_notStored {entity : String} :
    ∀ e : QueryError, e = .notStored entity → e.IsOfGivenPart := by
  rintro _ rfl
  trivial

/-! ## Conditions on columns -/

theorem Value.failsOnly_operands (v : Value) :
    FailsOnly (· ≠ FilterError.fragmentNegated) v.operands := by
  unfold operands
  cases v.elements with
  | error fault => exact .error (by simp)
  | ok items => exact .ok items

namespace Operator

variable {op : Operator} {negated : Bool} {c : Sql.Column} {v : Value}

theorem failsOnly_ordering {relation : Sql.Relation} :
    FailsOnly (· ≠ .fragmentNegated) (op.ordering relation c v) := by
  unfold ordering
  split
  · exact .error (by simp)
  · exact .ok _

theorem failsOnly_pattern : FailsOnly (· ≠ .fragmentNegated) (op.pattern negated c v) := by
  unfold pattern
  split
  · exact .error (by simp)
  · exact .ok _

theorem failsOnly_membership {values : List Value} :
    FailsOnly (· ≠ .fragmentNegated) (op.membership negated c values) := by
  unfold membership
  split
  · exact .error (by simp)
  · split
    · exact .error (by simp)
    · exact .ok _

theorem failsOnly_expr : FailsOnly (· ≠ .fragmentNegated) (op.expr c v) := by
  cases op with
  | eq => exact .ok _
  | notEq => exact .ok _
  | isIn => exact v.failsOnly_operands.bind fun _ _ => failsOnly_membership
  | notIn => exact v.failsOnly_operands.bind fun _ _ => failsOnly_membership
  | lt => exact failsOnly_ordering
  | ltEq => exact failsOnly_ordering
  | gt => exact failsOnly_ordering
  | gtEq => exact failsOnly_ordering
  | like => exact failsOnly_pattern
  | notLike => exact failsOnly_pattern

end Operator

theorem Test.failsOnly_expr {t : Test} {c : Sql.Column} {operand : Value} :
    FailsOnly (· ≠ .fragmentNegated) (t.expr c operand) := by
  unfold expr
  split
  · exact Operator.failsOnly_expr
  all_goals
    exact operand.failsOnly_operands.bind fun _ _ =>
      (FailsOnly.mapM fun _ _ => Operator.failsOnly_expr).bind fun _ _ => .ok _

theorem Value.failsOnly_leaf (v : Value) (c : Sql.Column) :
    FailsOnly (· ≠ FilterError.fragmentNegated) (v.leaf c) := by
  unfold leaf
  split
  · exact Test.failsOnly_expr
  · exact Operator.failsOnly_membership
  · exact .ok _

theorem Schema.failsOnly_mappingExpr {s : Schema} {entity : String}
    {entries : List (String × Value)} :
    FailsOnly (· ≠ .fragmentNegated) (s.mappingExpr entity entries) := by
  unfold mappingExpr
  split
  · exact .ok _
  · refine (FailsOnly.mapM fun entry _ => ?_).bind fun _ _ => .ok _
    exact (failsOnly_liftSchema _).bind fun _ _ => entry.2.failsOnly_leaf _

/-- Building the expression of a filter negates nothing. -/
theorem Filter.failsOnly_toExpr (filter : Filter) {s : Schema} {entity : String} :
    FailsOnly (· ≠ .fragmentNegated) (filter.toExpr s entity) := by
  unfold toExpr
  split
  · exact Schema.failsOnly_mappingExpr
  · exact .ok _
  · exact .ok _
  · exact .error (by simp)

/-! ## Parts of queries -/

/-- Whether a rule is about some action and some subject. -/
def Rule.IsNamed (rule : Rule) : Prop := rule.actions ≠ [] ∧ rule.subjects ≠ []

namespace Query

variable {q : Query} {rule : Rule} {entity : String} {p : Sql.Expr} {field : ProxyField}

theorem failsOnly_ruleFilter : FailsOnly QueryError.IsOfGivenPart (q.ruleFilter rule entity) :=
  failsOnly_liftLookup _

theorem failsOnly_ruleExpr : FailsOnly QueryError.IsOfGivenPart (q.ruleExpr rule entity) := by
  unfold ruleExpr
  split
  · exact .ok none
  · refine failsOnly_ruleFilter.bind fun filter _ => ?_
    exact (failsOnly_liftFilter filter.failsOnly_toExpr).bind fun _ _ => .ok _

section Mergeable

variable (hmergeable : ∀ rule ∈ q.rules, rule.condition.isMergeable = true)
include hmergeable

/-- Conditions of mappings are no texts, so the opposite of each of them can be built. -/
theorem failsOnly_combined : FailsOnly QueryError.IsOfGivenPart q.combined := by
  refine .foldlM (fun rule hrule acc => ?_) _
  refine failsOnly_ruleExpr.bind fun condition hexpr => failsOnly_liftFilter ?_
  have hcondition := ruleExpr_isCondition (hmergeable rule (List.mem_reverse.mp hrule)) hexpr
  obtain ⟨acc', hacc'⟩ := Sql.Expr.exists_override acc rule.allow hcondition
  exact hacc' ▸ .ok acc'

theorem failsOnly_filter : FailsOnly QueryError.IsOfGivenPart q.filter := by
  unfold Query.filter
  split
  · split
    · exact failsOnly_ruleFilter
    · exact (failsOnly_combined hmergeable).map
  · exact (failsOnly_combined hmergeable).map

theorem failsOnly_predicate : FailsOnly QueryError.IsOfGivenPart q.predicate :=
  (failsOnly_filter hmergeable).bind fun filter _ => failsOnly_liftFilter filter.failsOnly_toExpr

end Mergeable

theorem failsOnly_unionPredicate : FailsOnly QueryError.IsOfGivenPart q.unionPredicate :=
  (FailsOnly.mapM fun _ _ => failsOnly_ruleExpr.bind fun _ _ => .ok _).bind fun _ _ => .ok _

theorem failsOnly_allRows : FailsOnly (· = .notStored q.entity) q.allRows := by
  unfold allRows
  split
  · exact .ok _
  · exact .error rfl

theorem failsOnly_rowsWhere : FailsOnly (· = .notStored q.entity) (q.rowsWhere p) :=
  failsOnly_allRows.bind fun _ _ => .ok _

theorem failsOnly_joinedStatement : FailsOnly QueryError.IsOfGivenPart (q.joinedStatement p) := by
  refine (failsOnly_rowsWhere.mono QueryError.isOfGivenPart_notStored).bind fun _ _ => ?_
  exact (failsOnly_liftLookup _).bind fun _ _ => (failsOnly_liftLookup _).bind fun _ _ => .ok _

theorem failsOnly_mergedRecords (hmergeable : ∀ rule ∈ q.rules, rule.condition.isMergeable = true) :
    FailsOnly QueryError.IsOfGivenPart q.mergedRecords :=
  (failsOnly_predicate hmergeable).bind fun _ _ =>
    failsOnly_joinedStatement.bind fun _ _ => .ok _

/-- The rules of a query that are no mappings. -/
def unmergeable (q : Query) : List Rule := q.rules.filter fun rule => !rule.condition.isMergeable

theorem unmergeable_eq_nil : q.unmergeable = [] ↔ q.isMergeable = true := by
  simp [unmergeable, isMergeable, List.filter_eq_nil_iff]

/-- The rules of a query that have associations. -/
def associated (q : Query) : List Rule :=
  q.rules.filter fun rule => !rule.condition.associations.isEmpty

@[simp] theorem refuse_nil (conflict : Conflict) : q.refuse [] conflict = .ok () := rfl

section Named

variable (hnamed : ∀ rule ∈ q.rules, rule.IsNamed)
include hnamed

theorem failsOnly_proxySubject (hrule : rule ∈ q.rules) :
    FailsOnly QueryError.IsOfGivenPart (q.proxySubject rule) := by
  unfold proxySubject Rule.primarySubject?
  cases hsubjects : rule.subjects with
  | nil => exact ((hnamed rule hrule).2 hsubjects).elim
  | cons subject rest =>
      cases subject with
      | kind name => exact .ok name
      | label text => exact .error (by simp [QueryError.IsOfGivenPart])

theorem failsOnly_guardedExpr (hrule : rule ∈ q.rules) :
    FailsOnly QueryError.IsOfGivenPart (q.guardedExpr rule) :=
  (failsOnly_proxySubject hnamed hrule).bind fun _ _ => failsOnly_ruleExpr.bind fun _ _ =>
    (failsOnly_liftLookup _).bind fun _ _ => .ok _

section Mergeable

variable (hmergeable : ∀ rule ∈ q.rules, rule.condition.isMergeable = true)
include hmergeable

theorem failsOnly_combinedGuarded : FailsOnly QueryError.IsOfGivenPart q.combinedGuarded := by
  refine .foldlM (fun rule hrule acc => ?_) _
  have hmem := List.mem_reverse.mp hrule
  refine (failsOnly_guardedExpr hnamed hmem).bind fun guarded hguarded => .map ?_
  have hcondition := guardedExpr_isCondition (hmergeable rule hmem) hguarded
  obtain ⟨acc', hacc'⟩ := hcondition.exists_overrideGuarded acc rule.allow
  exact hacc' ▸ .ok acc'

theorem failsOnly_subjectPredicate :
    FailsOnly QueryError.IsOfGivenPart q.subjectPredicate := by
  have hcombined := failsOnly_combinedGuarded hnamed hmergeable
  unfold subjectPredicate
  split
  next rule hlist =>
    split
    · exact failsOnly_guardedExpr hnamed (by simp [hlist])
    · exact hcombined.bind fun _ _ => .ok _
  next => exact hcombined.bind fun _ _ => .ok _

end Mergeable

/-- A proxy whose rules are mappings without associations has a statement, unless a part of it
cannot be built. -/
theorem failsOnly_proxyStatement (hmappings : q.unmergeable = [])
    (hassociated : q.associated = []) :
    FailsOnly QueryError.IsOfGivenPart (q.proxyStatement field) := by
  have hmergeable := List.all_eq_true.mp (unmergeable_eq_nil.mp hmappings)
  rw [proxyStatement, ← unmergeable, hmappings, ← associated, hassociated, refuse_nil, refuse_nil]
  refine (failsOnly_liftLookup _).bind fun typeColumn _ =>
    (failsOnly_liftLookup _).bind fun idColumn _ =>
      (failsOnly_allRows.mono QueryError.isOfGivenPart_notStored).bind fun base _ => ?_
  refine (FailsOnly.mapM fun rule hrule => failsOnly_proxySubject hnamed hrule).bind
    fun subjects _ => (FailsOnly.mapM fun subject _ => ?_).bind fun joins _ =>
      (failsOnly_subjectPredicate hnamed hmergeable).bind fun _ _ => .ok _
  exact (failsOnly_liftLookup _).bind fun _ _ => (failsOnly_liftLookup _).bind fun _ _ => .ok _

/-- Some action can be named in an error about some of the rules. -/
theorem exists_actionFor {rules : List Rule} (hsub : rules ⊆ q.rules) (hne : rules ≠ []) :
    ∃ action, q.actionFor rules = .ok action := by
  unfold actionFor
  split
  · exact ⟨q.action, rfl⟩
  · obtain ⟨rule, rest, rfl⟩ := List.exists_cons_of_ne_nil hne
    obtain ⟨allow, actions, subjects, condition⟩ := rule
    obtain ⟨action, others, rfl⟩ :=
      List.exists_cons_of_ne_nil (hnamed _ (hsub List.mem_cons_self)).1
    exact ⟨.str action, rfl⟩

end Named

/-! ## Clashes -/

/-- The latest rule with a scope, if there is one. -/
def scopeRule? (q : Query) : Option Rule := q.rules.find? (·.condition.kind == .scope)

/-- Rules of a query clash: they cannot be combined into one statement. An error about them names
an action and a subject. -/
inductive Clash (q : Query) : Value → String → List Rule → Conflict → Prop
  /-- A scope stands beside another rule; all rules clash. -/
  | scope {rule : Rule} {action : String} {subject : Subject} (hscope : q.scopeRule? = some rule)
      (hmany : q.rules.length ≠ 1) (haction : rule.actions.head? = some action)
      (hsubject : rule.primarySubject? = some subject) :
      Clash q (.str action) subject.name q.rules .scope
  /-- A proxy has rules that are no mappings. -/
  | conditions {action : Value} (hscope : q.scopeRule? = none) (hproxy : q.isProxy = true)
      (hne : q.unmergeable ≠ []) (haction : q.actionFor q.unmergeable = .ok action) :
      Clash q action q.entity q.unmergeable .conditions
  /-- A proxy has mappings only, but rules with associations. -/
  | associations {action : Value} (hproxy : q.isProxy = true) (hmappings : q.unmergeable = [])
      (hne : q.associated ≠ []) (haction : q.actionFor q.associated = .ok action) :
      Clash q action q.entity q.associated .associations
  /-- Conditions would stand side by side, which is not wanted; all rules clash. -/
  | fragments (hscope : q.scopeRule? = none) (hproxy : q.isProxy = false)
      (hfragment : ∃ rule ∈ q.rules, rule.condition.kind = .fragment)
      (hfail : q.config.onFallbackQuery = .fail) :
      Clash q q.action q.entity q.rules .conditions

theorem scopeRule?_eq_none :
    q.scopeRule? = none ↔ ∀ rule ∈ q.rules, rule.condition.kind ≠ .scope := by
  simp [scopeRule?, List.find?_eq_none]

/-- The scopes of a query start with that of the latest rule with a scope. -/
theorem scopes_cases : (q.scopeRule? = none ∧ q.scopes = []) ∨ ∃ rule body more,
    q.scopeRule? = some rule ∧ rule.condition = .scope body ∧ q.scopes = (rule, body) :: more := by
  unfold scopeRule? scopes
  induction q.rules with
  | nil => exact Or.inl ⟨rfl, rfl⟩
  | cons rule rest ih =>
      obtain ⟨allow, actions, subjects, condition⟩ := rule
      cases condition with
      | mapping tree => exact ih
      | fragment body => exact ih
      | scope body => exact Or.inr ⟨_, body, _, rfl, rfl, rfl⟩

theorem scopes_of_scopeRule? (h : q.scopeRule? = none) : q.scopes = [] := by
  rcases scopes_cases with ⟨_, hscopes⟩ | ⟨rule, body, more, hrule, _⟩
  · exact hscopes
  · rw [h] at hrule
    cases hrule

/-- Rules without a scope are mappings, or there is a fragment among them. -/
theorem exists_fragment (hscope : q.scopeRule? = none) (h : q.isMergeable = false) :
    ∃ rule ∈ q.rules, rule.condition.kind = .fragment := by
  obtain ⟨rule, hrule, hnot⟩ := List.all_eq_false.mp h
  have hnoScope := scopeRule?_eq_none.mp hscope rule hrule
  refine ⟨rule, hrule, ?_⟩
  cases hcondition : rule.condition with
  | mapping tree => simp [hcondition, Condition.isMergeable, Condition.kind] at hnot
  | fragment body => rfl
  | scope body => simp [hcondition, Condition.kind] at hnoScope

theorem isMergeable_eq_false (h : ∃ rule ∈ q.rules, rule.condition.kind = .fragment) :
    q.isMergeable = false := by
  obtain ⟨rule, hrule, hkind⟩ := h
  exact List.all_eq_false.mpr ⟨rule, hrule, by simp [Condition.isMergeable, hkind]⟩

theorem refuse_eq_error {rules : List Rule} {action : Value} {conflict : Conflict}
    (hne : rules ≠ []) (haction : q.actionFor rules = .ok action) :
    q.refuse rules conflict = .error (.unmergeable action q.entity rules conflict) := by
  unfold refuse
  rw [if_neg (by simpa using hne), haction]
  rfl

theorem scopeBody_of_scope {body : Value} (hlist : q.rules = [rule])
    (hscope : rule.condition = .scope body) : q.scopeBody = .ok (some body) := by
  simp [scopeBody, scopes, hlist, hscope]

/-- A scope supplies the statement if it is the only rule. -/
theorem records_of_scope {body : Value} (hlist : q.rules = [rule])
    (hscope : rule.condition = .scope body) (hbody : body ≠ .null) :
    q.records = .ok ⟨.ofValue body, none, none⟩ := by
  -- a body that is null would be taken for an empty scope
  simp only [records, scopeBody_of_scope hlist hscope, bind, Except.bind]
  rfl

theorem records_of_emptyScope (hlist : q.rules = [rule]) (hscope : rule.condition = .scope .null) :
    q.records = .error .emptyScope := by
  rw [records, scopeBody_of_scope hlist hscope]
  rfl

/-- A scope beside another rule is refused in the name of the latest rule with a scope. -/
theorem scopeBody_eq_error {action : String} {subject : Subject}
    (hscope : q.scopeRule? = some rule) (hmany : q.rules.length ≠ 1)
    (haction : rule.actions.head? = some action) (hsubject : rule.primarySubject? = some subject) :
    q.scopeBody = .error (.unmergeable (.str action) subject.name q.rules .scope) := by
  obtain ⟨hnone, _⟩ | ⟨latest, body, more, hlatest, _, hscopes⟩ := q.scopes_cases
  · rw [hscope] at hnone
    cases hnone
  obtain rfl := Option.some.inj (hscope.symm.trans hlatest)
  unfold scopeBody
  rw [hscopes]
  split
  next heq => cases heq
  next hlist => simp [hlist] at hmany
  next hfirst _ =>
    obtain ⟨rfl, rfl⟩ := Prod.mk.inj (List.cons.inj hfirst).1
    rw [haction, hsubject]
    rfl

/-- Without a scope, the statement for rules on a proxy outer-joins their subjects. -/
theorem records_of_proxy (hscope : q.scopeRule? = none) (hne : q.rules ≠ [])
    (hproxy : q.proxy? = some field) :
    q.records = do return ⟨.select (← q.proxyStatement field), none, none⟩ := by
  rw [records_of_scopes (scopes_of_scopeRule? hscope), hproxy, if_neg (by simpa using hne)]

/-- A clash is the failure of the query. -/
theorem Clash.records_eq {action : Value} {subject : String} {rules : List Rule}
    {conflict : Conflict} (h : q.Clash action subject rules conflict) :
    q.records = .error (.unmergeable action subject rules conflict) := by
  cases h with
  | scope hscope hmany haction hsubject =>
      unfold records
      rw [scopeBody_eq_error hscope hmany haction hsubject]
      rfl
  | conditions hscope hproxy hne haction =>
      obtain ⟨field, hfield⟩ := Option.isSome_iff_exists.mp hproxy
      have hrules : q.rules ≠ [] := fun hnil => hne (by simp [unmergeable, hnil])
      rw [records_of_proxy hscope hrules hfield, proxyStatement, ← unmergeable,
        refuse_eq_error hne haction]
      rfl
  | associations hproxy hmappings hne haction =>
      obtain ⟨field, hfield⟩ := Option.isSome_iff_exists.mp hproxy
      have hrules : q.rules ≠ [] := fun hnil => hne (by simp [associated, hnil])
      have hscope : q.scopeRule? = none := by
        rw [scopeRule?_eq_none]
        intro rule hrule hkind
        have hmapping := List.all_eq_true.mp (unmergeable_eq_nil.mp hmappings) rule hrule
        simp [Condition.isMergeable, hkind] at hmapping
      rw [records_of_proxy hscope hrules hfield, proxyStatement, ← unmergeable, hmappings,
        refuse_nil, ← associated, refuse_eq_error hne haction]
      rfl
  | fragments hscope hproxy hfragment hfail =>
      have hrules : q.rules.isEmpty = false := by
        obtain ⟨rule, hrule, _⟩ := hfragment
        simpa using List.ne_nil_of_mem hrule
      have hfield : q.proxy? = none := by simpa [isProxy] using hproxy
      rw [records_of_scopes (scopes_of_scopeRule? hscope), hfield]
      simp only [hrules, isMergeable_eq_false hfragment, Bool.false_eq_true, if_false,
        fallbackRecords, hfail]

/-- Without a clash, and unless there is no rule where one is demanded or the only rule supplies
nothing, a query can fail for a given part of its statement only. -/
theorem clash_or_failsOnly (hnamed : ∀ rule ∈ q.rules, rule.IsNamed) :
    (∃ action subject rules conflict, q.Clash action subject rules conflict) ∨
      (q.rules = [] ∧ q.config.onMissingRules = .fail) ∨
      (∃ rule ∈ q.rules, rule.condition = .scope .null ∧ q.records = .error .emptyScope) ∨
      FailsOnly QueryError.IsOfGivenPart q.records := by
  -- the cases come in the order in which the records are decided: scopes, no rules, proxies,
  -- and last whether all conditions are mappings
  rcases q.scopes_cases with ⟨hscope, hscopes⟩ | ⟨rule, body, _, hscope, hcondition, _⟩
  · by_cases hne : q.rules = []
    · rw [records_of_scopes hscopes, if_pos (by simp [hne])]
      unfold emptyRecords
      split
      next hfail => exact Or.inr (Or.inl ⟨hne, hfail⟩)
      next =>
        refine Or.inr (Or.inr (Or.inr ?_))
        exact (failsOnly_rowsWhere.mono QueryError.isOfGivenPart_notStored).bind fun _ _ => .ok _
    cases hproxy : q.proxy? with
    | some field =>
        have hisProxy : q.isProxy = true := by simp [isProxy, hproxy]
        by_cases hmappings : q.unmergeable = []
        · by_cases hassociated : q.associated = []
          · refine Or.inr (Or.inr (Or.inr ?_))
            rw [records_of_proxy hscope hne hproxy]
            exact (failsOnly_proxyStatement hnamed hmappings hassociated).bind fun _ _ => .ok _
          · obtain ⟨action, haction⟩ :=
              exists_actionFor hnamed (List.filter_subset_self _) hassociated
            exact Or.inl ⟨_, _, _, _, .associations hisProxy hmappings hassociated haction⟩
        · obtain ⟨action, haction⟩ := exists_actionFor hnamed (List.filter_subset_self _) hmappings
          exact Or.inl ⟨_, _, _, _, .conditions hscope hisProxy hmappings haction⟩
    | none =>
        have hempty : q.rules.isEmpty = false := by simpa using hne
        rw [records_of_scopes hscopes, hproxy]
        simp only [hempty, Bool.false_eq_true, if_false]
        split
        next hmergeable =>
          exact Or.inr (Or.inr (Or.inr (failsOnly_mergedRecords (List.all_eq_true.mp hmergeable))))
        next hmergeable =>
          have hfragment := exists_fragment hscope (by simpa using hmergeable)
          unfold fallbackRecords
          split
          next hfail =>
            exact Or.inl ⟨_, _, _, _, .fragments hscope (isProxy_eq_false hproxy) hfragment hfail⟩
          all_goals
            exact Or.inr (Or.inr (Or.inr (failsOnly_unionPredicate.bind fun _ _ =>
              failsOnly_joinedStatement.bind fun _ _ => .ok _)))
  · have hrule : rule ∈ q.rules := List.mem_of_find?_eq_some hscope
    by_cases hone : q.rules.length = 1
    · -- the scope is the only rule, which supplies the statement
      obtain ⟨only, hlist⟩ := List.length_eq_one_iff.mp hone
      obtain rfl : rule = only := by simpa [hlist] using hrule
      refine Or.inr (Or.inr ?_)
      by_cases hbody : body = .null
      · subst hbody
        exact Or.inl ⟨rule, hrule, hcondition, records_of_emptyScope hlist hcondition⟩
      · rw [records_of_scope hlist hcondition hbody]
        exact Or.inr (.ok _)
    · obtain ⟨action, _, hactions⟩ := List.exists_cons_of_ne_nil (hnamed rule hrule).1
      obtain ⟨subject, _, hsubjects⟩ := List.exists_cons_of_ne_nil (hnamed rule hrule).2
      exact Or.inl ⟨_, _, _, _, .scope hscope hone (by rw [hactions]; rfl)
        (by rw [Rule.primarySubject?, hsubjects]; rfl)⟩

/-- Without rules no row is selected, where that is not a failure. -/
theorem records_of_nil {e : Entity} (hnil : q.rules = []) (hdeny : q.config.onMissingRules = .deny)
    (hentity : q.schema.entity? q.entity = some e) : q.records =
      .ok ⟨.select { Select.ofEntity e with filter := some (.const false) },
        some (.const false), none⟩ := by
  rw [records_of_scopes (by simp [scopes, hnil]), if_pos (by simp [hnil]), emptyRecords, hdeny]
  simp [rowsWhere, allRows, hentity, bind, Except.bind, pure, Except.pure]

theorem records_of_nil_of_fail (hnil : q.rules = []) (hfail : q.config.onMissingRules = .fail) :
    q.records = .error (.noRules q.action q.entity) := by
  rw [records_of_scopes (by simp [scopes, hnil]), if_pos (by simp [hnil]), emptyRecords, hfail]

theorem scopes_ne_nil_of_strategy (h : q.strategy = .scope) : q.scopes ≠ [] := by
  intro hnil
  rw [strategy, hnil] at h
  grind

theorem isProxy_of_strategy (h : q.strategy = .proxy) : q.isProxy = true := by
  rw [strategy] at h
  grind

/-- Where the strategy is to take a scope there is one, which is supplied or refused. -/
theorem scopeBody_of_strategy (h : q.strategy = .scope) : q.scopeBody ≠ .ok none := by
  intro hbody
  unfold scopeBody at hbody
  split at hbody
  next hnil => exact scopes_ne_nil_of_strategy h hnil
  next => cases hbody
  next =>
    obtain ⟨_, _, hbody⟩ := Outcome.bind_eq_ok.mp hbody
    obtain ⟨_, _, hbody⟩ := Outcome.bind_eq_ok.mp hbody
    cases hbody

section Outcomes

variable (hnamed : ∀ rule ∈ q.rules, rule.IsNamed)
  (hsupplied : ∀ rule ∈ q.rules, ∀ body, rule.condition = .scope body → body ≠ .null)
include hnamed hsupplied

theorem records_error_cases {e : QueryError} (h : q.records = .error e) :
    (∃ action subject rules conflict, e = .unmergeable action subject rules conflict ∧
      q.Clash action subject rules conflict) ∨
    (e = .noRules q.action q.entity ∧ q.rules = [] ∧ q.config.onMissingRules = .fail) ∨
    e.IsOfPart := by
  rcases clash_or_failsOnly hnamed with ⟨action, subject, rules, conflict, hclash⟩ |
    ⟨hnil, hfail⟩ | ⟨rule, hrule, hscope, _⟩ | honly
  · obtain rfl := Except.error.inj (h.symm.trans hclash.records_eq)
    exact Or.inl ⟨action, subject, rules, conflict, rfl, hclash⟩
  · obtain rfl := Except.error.inj (h.symm.trans (records_of_nil_of_fail hnil hfail))
    exact Or.inr (Or.inl ⟨rfl, hnil, hfail⟩)
  · exact (hsupplied rule hrule .null hscope rfl).elim
  · exact Or.inr (Or.inr (honly e h).isOfPart)

theorem records_eq_unmergeable_iff {action : Value} {subject : String} {rules : List Rule}
    {conflict : Conflict} : q.records = .error (.unmergeable action subject rules conflict) ↔
      q.Clash action subject rules conflict := by
  refine ⟨fun h => ?_, Clash.records_eq⟩
  rcases records_error_cases hnamed hsupplied h with ⟨_, _, _, _, heq, hclash⟩ | ⟨heq, _⟩ | hpart
  · cases heq
    exact hclash
  · cases heq
  · exact hpart.elim

theorem records_eq_noRules_iff {action : Value} {subject : String} :
    q.records = .error (.noRules action subject) ↔
      q.rules = [] ∧ q.config.onMissingRules = .fail ∧ action = q.action ∧ subject = q.entity := by
  constructor
  · intro h
    rcases records_error_cases hnamed hsupplied h with
      ⟨_, _, _, _, heq, _⟩ | ⟨heq, hnil, hfail⟩ | hpart
    · cases heq
    · cases heq
      exact ⟨hnil, hfail, rfl, rfl⟩
    · exact hpart.elim
  · rintro ⟨hnil, hfail, rfl, rfl⟩
    exact records_of_nil_of_fail hnil hfail

/-- What a query comes to whose rules are about some action and some subject and whose scopes
supply something. A scope that is the only rule is the statement. The query fails for rules that
cannot be combined exactly if they clash, and for want of rules exactly if there is none and one is
demanded; without a rule it selects no row otherwise. All other errors are about a part of the
statement: a query with a scope has what it supplies, and one on a proxy has its field. -/
theorem records_outcome :
    (∀ rule body, q.rules = [rule] → rule.condition = .scope body →
      q.records = .ok ⟨.ofValue body, none, none⟩) ∧
    (∀ action subject rules conflict,
      q.records = .error (.unmergeable action subject rules conflict) ↔
        q.Clash action subject rules conflict) ∧
    (∀ action subject, q.records = .error (.noRules action subject) ↔
      q.rules = [] ∧ q.config.onMissingRules = .fail ∧ action = q.action ∧ subject = q.entity) ∧
    (∀ e, q.rules = [] → q.config.onMissingRules = .deny → q.schema.entity? q.entity = some e →
      q.records = .ok ⟨.select { Select.ofEntity e with filter := some (.const false) },
        some (.const false), none⟩) ∧
    (∀ e, q.records = .error e → e.IsOfPart ∨ (∃ action subject, e = .noRules action subject) ∨
      ∃ action subject rules conflict, e = .unmergeable action subject rules conflict) ∧
    (q.strategy = .scope → q.scopeBody ≠ .ok none) ∧ (q.strategy = .proxy → q.proxy? ≠ none) := by
  refine ⟨fun rule body hlist hscope => ?_,
    fun _ _ _ _ => records_eq_unmergeable_iff hnamed hsupplied,
    fun _ _ => records_eq_noRules_iff hnamed hsupplied,
    fun e hnil hdeny hentity => records_of_nil hnil hdeny hentity, fun e h => ?_,
    scopeBody_of_strategy, fun hstrategy => ?_⟩
  · exact records_of_scope hlist hscope (hsupplied rule (by simp [hlist]) body hscope)
  · rcases records_error_cases hnamed hsupplied h with
      ⟨action, subject, rules, conflict, heq, _⟩ | ⟨heq, _⟩ | hpart
    · exact Or.inr (Or.inr ⟨action, subject, rules, conflict, heq⟩)
    · exact Or.inr (Or.inl ⟨_, _, heq⟩)
    · exact Or.inl hpart
  · exact Option.isSome_iff_ne_none.mp (isProxy_of_strategy hstrategy)

end Outcomes

/-- Activities on the first post and on posts by unbanned authors are readable. -/
def authoredTracking : Query := Sample.reading "Activity"
  [Sample.readRule true "Post" (.literal "id" (.int 1) .nil),
    Sample.readRule true "Post" (.association "author" (.literal "banned" (.bool false) .nil) .nil)]

theorem authoredTracking_refused : authoredTracking.records =
    .error (.unmergeable (.str "read") "Activity"
      [Sample.readRule true "Post"
        (.association "author" (.literal "banned" (.bool false) .nil) .nil)] .associations) := by
  have hnamed : ∀ rule ∈ authoredTracking.rules, rule.IsNamed := by
    intro rule hrule
    rcases List.mem_pair.mp hrule with rfl | rfl <;>
      exact ⟨List.cons_ne_nil _ _, List.cons_ne_nil _ _⟩
  have hsupplied : ∀ rule ∈ authoredTracking.rules, ∀ body,
      rule.condition = .scope body → body ≠ .null := by
    intro rule hrule body hscope
    rcases List.mem_pair.mp hrule with rfl | rfl <;> cases hscope
  obtain ⟨_, hunmergeable, _⟩ := records_outcome hnamed hsupplied
  exact (hunmergeable _ _ _ _).mpr (.associations rfl rfl (List.cons_ne_nil _ _) rfl)

end Query

end RowPolicy
