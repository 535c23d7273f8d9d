import RowPolicy.Proofs.Entry
import RowPolicy.Proofs.Precedence
import RowPolicy.Query

/-!
# What the filter of a query decides

The filter of a query has the truth value of the plain fold of its rules: it is true if
the latest rule whose condition is true allows.
-/

namespace RowPolicy

open Sql (Expr Assignment Truth Valuation)
open Sql.Expr (Kept)

namespace Condition

/-- Only a mapping can be combined with other conditions. -/
theorem exists_tree {c : Condition} (h : c.isMergeable = true) :
    ∃ tree, c = .mapping tree := by
  cases c with
  | mapping tree => exact ⟨tree, rfl⟩
  | fragment body => cases h
  | scope body => cases h

end Condition

namespace Query

variable {q : Query} {rule : Rule} {entity : String} {σ : Assignment} {V : Valuation}

/-- The truth value of a rule's condition on an entity in a reading. A blank condition is true,
and one that cannot be built is not. -/
def truthIn (q : Query) (V : Valuation) (entity : String) (rule : Rule) : Truth :=
  match q.ruleExpr rule entity with
  | .ok condition => condition.elim .yes V.truth
  | .error _ => .no

/-- The truth value of a rule's condition on an entity. A blank condition is true, and one
that cannot be built is not. -/
def ruleTruth (q : Query) (σ : Assignment) (entity : String) (rule : Rule) : Truth :=
  match q.ruleExpr rule entity with
  | .ok condition => condition.elim .yes (·.eval σ)
  | .error _ => .no

theorem ruleTruth_of_ruleExpr {condition : Option Expr}
    (h : q.ruleExpr rule entity = .ok condition) :
    q.ruleTruth σ entity rule = condition.elim .yes (·.eval σ) := by
  rw [ruleTruth, h]

theorem truthIn_of_ruleExpr {condition : Option Expr}
    (h : q.ruleExpr rule entity = .ok condition) :
    q.truthIn V entity rule = condition.elim .yes V.truth := by
  rw [truthIn, h]

/-- The condition of a rule with a mapping is blank, or it is built from the mapping's
flat entries. -/
theorem ruleExpr_cases {tree : ConditionTree} {condition : Option Expr}
    (htree : rule.condition = .mapping tree) (h : q.ruleExpr rule entity = .ok condition) :
    (tree.isEmpty = true ∧ condition = none) ∨
      (tree.isEmpty = false ∧ ∃ flat e, q.schema.naming.flatten q.isProxy entity tree = .ok flat ∧
        q.schema.mappingExpr entity flat.entries = .ok e ∧ condition = some e) := by
  unfold ruleExpr at h
  rw [htree] at h
  cases hempty : tree.isEmpty with
  | true =>
      rw [if_pos (by simpa [Condition.isBlank] using hempty)] at h
      exact Or.inl ⟨rfl, (Except.ok.inj h).symm⟩
  | false =>
      rw [if_neg (by simp [Condition.isBlank, hempty])] at h
      simp only [Outcome.bind_eq_ok, Outcome.pure_eq_ok, liftFilter_eq_ok] at h
      obtain ⟨filter, hfilter, e, he, rfl⟩ := h
      rw [ruleFilter, htree, liftLookup_eq_ok, Condition.toFilter, Outcome.map_eq_ok] at hfilter
      obtain ⟨flat, hflat, rfl⟩ := hfilter
      exact Or.inr ⟨rfl, flat, e, hflat, he, rfl⟩

/-- A property that combining conditions keeps holds of a rule's condition if it holds of
the conditions of the flat entries. -/
theorem ruleExpr_kept {P : Expr → Prop} (hP : Kept P) {tree : ConditionTree}
    {condition : Option Expr} (htree : rule.condition = .mapping tree)
    (h : q.ruleExpr rule entity = .ok condition)
    (hentries : ∀ flat, q.schema.naming.flatten q.isProxy entity tree = .ok flat →
      ∀ entry ∈ flat.entries, ∀ part, q.schema.entryExpr entity entry = .ok part → P part) :
    ∀ e ∈ condition, P e := by
  rcases ruleExpr_cases htree h with ⟨_, rfl⟩ | ⟨_, flat, e, hflat, he, rfl⟩
  · intro e he
    cases he
  · intro e' he'
    obtain rfl := Option.some.inj he'
    exact Schema.mappingExpr_kept hP he (hentries flat hflat)

theorem ruleExpr_isCondition (hrule : rule.condition.isMergeable = true)
    {condition : Option Expr} (h : q.ruleExpr rule entity = .ok condition) :
    ∀ e ∈ condition, e.IsCondition := by
  obtain ⟨tree, htree⟩ := Condition.exists_tree hrule
  refine ruleExpr_kept Sql.Expr.kept_isCondition htree h fun _ _ entry _ part hpart => ?_
  obtain ⟨c, _, hleaf⟩ := Schema.entryExpr_eq_ok.mp hpart
  exact (Value.leaf_keepsTo hleaf).1

/-! ## Rules on the entity itself -/

theorem combined_eq : q.combined = q.rules.foldrM
    (fun rule acc => do liftFilter (acc.override rule.allow (← q.ruleExpr rule q.entity)))
    (.const false) :=
  List.foldlM_reverse

/-- What holds of the condition of every rule holds of their combination, if combining
conditions keeps it. -/
theorem combined_kept {P : Expr → Prop} (hP : Kept P) {p : Expr} (h : q.combined = .ok p)
    (hrules : ∀ rule ∈ q.rules, ∀ condition, q.ruleExpr rule q.entity = .ok condition →
      ∀ e ∈ condition, P e) : P p := by
  rw [combined_eq] at h
  generalize q.rules = rules at h hrules
  induction rules generalizing p with
  | nil =>
      obtain rfl := Outcome.pure_eq_ok.mp h
      exact hP.const false
  | cons rule rest ih =>
      rw [List.foldrM_cons, Outcome.bind_eq_ok] at h
      obtain ⟨acc, hacc, h⟩ := h
      simp only [Outcome.bind_eq_ok, liftFilter_eq_ok] at h
      obtain ⟨condition, hcondition, h⟩ := h
      exact hP.override (ih hacc fun rule hrule => hrules rule (List.mem_cons_of_mem _ hrule))
        (hrules rule List.mem_cons_self condition hcondition) h

/-- Where the rules can be combined, the condition of each can be built. -/
theorem exists_ruleExpr_of_combined {p : Expr} (h : q.combined = .ok p) :
    ∀ rule ∈ q.rules, ∃ condition, q.ruleExpr rule q.entity = .ok condition := by
  rw [combined_eq] at h
  generalize q.rules = rules at h
  induction rules generalizing p with
  | nil => simp
  | cons rule rest ih =>
      rw [List.foldrM_cons, Outcome.bind_eq_ok] at h
      obtain ⟨acc, hacc, h⟩ := h
      obtain ⟨condition, hcondition, _⟩ := Outcome.bind_eq_ok.mp h
      exact List.forall_mem_cons.mpr ⟨⟨condition, hcondition⟩, ih hacc⟩

/-- Mappings can be combined exactly if the condition of each rule can be built. -/
theorem exists_combined_iff (hrules : ∀ rule ∈ q.rules, rule.condition.isMergeable = true) :
    (∃ p, q.combined = .ok p) ↔
      ∀ rule ∈ q.rules, ∃ condition, q.ruleExpr rule q.entity = .ok condition := by
  refine ⟨fun ⟨_, h⟩ => exists_ruleExpr_of_combined h, fun hexprs => ?_⟩
  rw [combined_eq]
  generalize q.rules = rules at hrules hexprs
  induction rules with
  | nil => exact ⟨_, rfl⟩
  | cons rule rest ih =>
      obtain ⟨hrule, hrest⟩ := List.forall_mem_cons.mp hrules
      obtain ⟨⟨condition, hcondition⟩, hlater⟩ := List.forall_mem_cons.mp hexprs
      obtain ⟨acc, hacc⟩ := ih hrest hlater
      obtain ⟨p, hp⟩ := Sql.Expr.exists_override acc rule.allow
        (ruleExpr_isCondition hrule hcondition)
      simp only [List.foldrM_cons, Outcome.bind_eq_ok, liftFilter_eq_ok]
      exact ⟨p, acc, hacc, condition, hcondition, hp⟩

/-- The combined conditions have the truth value of the plain fold. -/
theorem truth_combined (hrules : ∀ rule ∈ q.rules, rule.condition.isMergeable = true)
    {p : Expr} (h : q.combined = .ok p) :
    V.truth p = Truth.overrideAll .no (q.truthIn V q.entity) q.rules := by
  rw [combined_eq] at h
  -- the fold keeps the filter a condition, so that every step has the plain step's value
  suffices hfold : p.IsCondition ∧
      V.truth p = Truth.overrideAll .no (q.truthIn V q.entity) q.rules from hfold.2
  generalize q.rules = rules at h hrules ⊢
  induction rules generalizing p with
  | nil =>
      obtain rfl := Outcome.pure_eq_ok.mp h
      exact ⟨trivial, V.truth_const false⟩
  | cons rule rest ih =>
      rw [List.foldrM_cons, Outcome.bind_eq_ok] at h
      obtain ⟨acc, hacc, h⟩ := h
      simp only [Outcome.bind_eq_ok, liftFilter_eq_ok] at h
      obtain ⟨condition, hcondition, h⟩ := h
      simp only [List.mem_cons, forall_eq_or_imp] at hrules
      obtain ⟨hisCondition, hvalue⟩ := ih hacc hrules.2
      have hrule := ruleExpr_isCondition hrules.1 hcondition
      refine ⟨Sql.Expr.kept_isCondition.override hisCondition hrule h, ?_⟩
      rw [Sql.Expr.truth_override hisCondition hrule h, hvalue, Truth.overrideAll_cons,
        truthIn_of_ruleExpr hcondition]

/-- The filter of a rule is the rule's condition, or the constant `true` if that is blank. -/
theorem ruleExpr_of_ruleFilter (hrule : rule.condition.isMergeable = true) {filter : Filter}
    {p : Expr} (hfilter : q.ruleFilter rule q.entity = .ok filter)
    (hp : filter.toExpr q.schema q.entity = .ok p) :
    ∃ condition, q.ruleExpr rule q.entity = .ok condition ∧ p = condition.getD (.const true) := by
  obtain ⟨tree, htree⟩ := Condition.exists_tree hrule
  cases hempty : tree.isEmpty with
  | true =>
      -- a blank mapping has no flat entries
      obtain rfl : tree = .nil := by cases tree <;> simp_all [ConditionTree.isEmpty]
      rw [ruleFilter, htree, liftLookup_eq_ok, Condition.toFilter, Outcome.map_eq_ok] at hfilter
      obtain ⟨flat, hflat, rfl⟩ := hfilter
      obtain rfl := Except.ok.inj hflat
      refine ⟨none, ?_, (Except.ok.inj hp).symm⟩
      rw [ruleExpr, htree]
      rfl
  | false =>
      refine ⟨some p, ?_, rfl⟩
      unfold ruleExpr
      rw [if_neg (by simp [htree, Condition.isBlank, hempty]), hfilter]
      simp only [Outcome.bind_eq_ok, Outcome.pure_eq_ok, liftFilter_eq_ok]
      exact ⟨_, rfl, p, hp, rfl⟩

/-- The filter of a query is built from the combination of its rules, or from the filter of the
only rule. -/
theorem filter_cases {p : Expr} (h : q.predicate = .ok p) :
    q.combined = .ok p ∨ ∃ rule filter, q.rules = [rule] ∧ rule.allow = true ∧
      q.ruleFilter rule q.entity = .ok filter ∧ filter.toExpr q.schema q.entity = .ok p := by
  have hcombined : ∀ {filter : Filter},
      (Filter.value ∘ Value.expr) <$> q.combined = .ok filter →
        filter.toExpr q.schema q.entity = .ok p → q.combined = .ok p := by
    intro filter hfilter hp
    obtain ⟨acc, hacc, rfl⟩ := Outcome.map_eq_ok.mp hfilter
    obtain rfl := Except.ok.inj hp
    exact hacc
  unfold predicate at h
  simp only [Outcome.bind_eq_ok, liftFilter_eq_ok] at h
  obtain ⟨filter, hfilter, hp⟩ := h
  unfold Query.filter at hfilter
  split at hfilter
  next rule hlist =>
    split at hfilter
    next hallow => exact Or.inr ⟨rule, filter, hlist, hallow, hfilter, hp⟩
    next => exact Or.inl (hcombined hfilter hp)
  next => exact Or.inl (hcombined hfilter hp)

/-- The filter of a query is the combination of its rules, or the condition of the only
rule. -/
theorem predicate_cases (hrules : ∀ rule ∈ q.rules, rule.condition.isMergeable = true)
    {p : Expr} (h : q.predicate = .ok p) :
    q.combined = .ok p ∨ ∃ rule condition, q.rules = [rule] ∧ rule.allow = true ∧
      q.ruleExpr rule q.entity = .ok condition ∧ p = condition.getD (.const true) := by
  rcases filter_cases h with hcombined | ⟨rule, filter, hlist, hallow, hfilter, hp⟩
  · exact Or.inl hcombined
  · obtain ⟨condition, hexpr, heq⟩ :=
      ruleExpr_of_ruleFilter (hrules rule (by simp [hlist])) hfilter hp
    exact Or.inr ⟨rule, condition, hlist, hallow, hexpr, heq⟩

/-- Where the filter of a query can be built so can the expression of each rule. -/
theorem exists_ruleExpr {p : Expr} (h : q.predicate = .ok p) :
    ∀ rule ∈ q.rules, ∃ condition, q.ruleExpr rule q.entity = .ok condition := by
  rcases filter_cases h with hcombined | ⟨rule, filter, hlist, _, hfilter, hp⟩
  · exact exists_ruleExpr_of_combined hcombined
  · rw [hlist, List.forall_mem_singleton]
    unfold ruleExpr
    split
    next => exact ⟨none, rfl⟩
    next =>
      simp only [Outcome.bind_eq_ok, Outcome.pure_eq_ok, liftFilter_eq_ok]
      exact ⟨_, filter, hfilter, p, hp, rfl⟩

/-- The filter of a query has, in all three values, the truth value of the plain fold. -/
theorem truth_predicate (hrules : ∀ rule ∈ q.rules, rule.condition.isMergeable = true)
    {p : Expr} (h : q.predicate = .ok p) :
    V.truth p = Truth.overrideAll .no (q.truthIn V q.entity) q.rules := by
  rcases predicate_cases hrules h with hcombined | ⟨rule, condition, hlist, hallow, hexpr, rfl⟩
  · exact truth_combined hrules hcombined
  · rw [hlist, Truth.overrideAll_cons, Truth.overrideAll_nil, truthIn_of_ruleExpr hexpr, hallow]
    cases condition with
    | none => exact V.truth_const true
    | some e =>
        simp only [Option.getD, Option.elim, Truth.override]
        cases V.truth e <;> rfl

theorem eval_predicate (hrules : ∀ rule ∈ q.rules, rule.condition.isMergeable = true)
    {p : Expr} (h : q.predicate = .ok p) :
    p.eval σ = Truth.overrideAll .no (q.ruleTruth σ q.entity) q.rules :=
  truth_predicate (V := .ofAssignment σ) hrules h

/-- The filter of a query is true where the latest true rule allows. -/
theorem eval_predicate_eq_yes (hrules : ∀ rule ∈ q.rules, rule.condition.isMergeable = true)
    {p : Expr} (h : q.predicate = .ok p) :
    p.eval σ = .yes ↔
      LatestAllows (fun rule => q.ruleTruth σ q.entity rule = .yes) q.rules := by
  rw [eval_predicate hrules h, Truth.overrideAll_eq_yes]
  simp

theorem predicate_kept {P : Expr → Prop} (hP : Kept P)
    (hrules : ∀ rule ∈ q.rules, rule.condition.isMergeable = true) {p : Expr}
    (h : q.predicate = .ok p)
    (hconditions : ∀ rule ∈ q.rules, ∀ condition, q.ruleExpr rule q.entity = .ok condition →
      ∀ e ∈ condition, P e) : P p := by
  rcases predicate_cases hrules h with hcombined | ⟨rule, condition, hlist, _, hexpr, rfl⟩
  · exact combined_kept hP hcombined hconditions
  · cases condition with
    | none => exact hP.const true
    | some e => exact hconditions rule (by simp [hlist]) _ hexpr e rfl

end Query

end RowPolicy
