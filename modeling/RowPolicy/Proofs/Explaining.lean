import RowPolicy.Proofs.BuiltRecords
import RowPolicy.Proofs.LiteralText

/-!
# Queries that can be explained

An explanation builds the filter and the conditions of the rules once more and writes all of them
with literal values. A query that fails is explained by the same failure. One that does not can be
explained exactly if its statement and the own condition of each rule can be written, also of a rule
whose condition is not left in the statement.
-/

namespace RowPolicy

open Sql (Expr Select)
open Outcome (FailsOnly)

/-- Whether an explanation fails because something cannot be written. -/
def ExplainError.IsPrint : ExplainError → Prop
  | .print _ => True
  | .query _ => False

namespace Query

variable {q : Query} {rule : Rule} {strategy : Strategy} {built : Records}

@[simp] theorem explaining_eq_ok {α : Type} {x : Except QueryError α} {a : α} :
    explaining x = .ok a ↔ x = .ok a := by
  cases x <;> simp [explaining]

@[simp] theorem printing_eq_ok {α : Type} {x : Except Sql.PrintError α} {a : α} :
    printing x = .ok a ↔ x = .ok a := by
  cases x <;> simp [printing]

theorem failsOnly_printing {α : Type} (x : Except Sql.PrintError α) :
    FailsOnly ExplainError.IsPrint (printing x) := by
  cases x with
  | error e => exact .error trivial
  | ok a => exact .ok a

/-- The text of a condition that may be blank. -/
def ownText (condition : Option Expr) : Except Sql.PrintError String :=
  condition.elim (.ok "") Expr.literalText

theorem exists_ownText_iff {condition : Option Expr} :
    (∃ text, ownText condition = .ok text) ↔ ∀ e ∈ condition, e.IsWritable := by
  cases condition with
  | none => simp [ownText]
  | some e => simpa [ownText] using Expr.exists_literalText_iff

/-- The steps of an explanation. -/
theorem explain_eq : q.explain = do
    let statement ← explaining q.statement
    let filter ← explaining q.statementFilter
    let rules ← q.rules.mapM q.explainRule
    let predicate ← printing (ownText filter)
    let text ← printing statement.literalText
    return { entity := .str q.entity
             action := q.action
             strategy := .str q.strategy.name
             rules := rules
             predicate := .str predicate
             joins := if q.strategy = .merged ∨ q.strategy = .fallback then q.joins else none
             statement := .str text } := by
  unfold explain
  refine bind_congr fun statement => bind_congr fun filter => bind_congr fun rules => ?_
  cases filter <;> rfl

/-! ## The text of a rule -/

/-- The text of a rule's condition, unless it is a scope. -/
theorem conditionText_eq (hkind : rule.condition.kind ≠ .scope) {condition : Option Expr}
    (h : q.ownExpr rule = .ok condition) : q.conditionText rule = printing (ownText condition) := by
  obtain ⟨entity, hentity, hexpr⟩ := Outcome.bind_eq_ok.mp h
  unfold conditionText
  cases hcondition : rule.condition with
  | scope body => simp [hcondition, Condition.kind] at hkind
  | mapping tree | fragment body =>
      simp only [hentity, explaining, bind, Except.bind, hexpr]
      cases condition <;> rfl

/-- What is written for a rule of a query that does not fail: its scope or its own condition. -/
theorem BuiltBy.conditionText_cases (h : q.BuiltBy strategy built) (hrule : rule ∈ q.rules) :
    (∃ body, rule.condition = .scope body ∧
      q.conditionText rule = printing (Sql.Statement.ofValue body).literalText) ∨
    (rule.condition.kind ≠ .scope ∧ ∃ condition, q.ownExpr rule = .ok condition ∧
      q.conditionText rule = printing (ownText condition)) := by
  by_cases hkind : rule.condition.kind = .scope
  · cases hcondition : rule.condition with
    | scope body => exact Or.inl ⟨body, rfl, by rw [conditionText, hcondition]⟩
    | mapping tree => simp [hcondition, Condition.kind] at hkind
    | fragment body => simp [hcondition, Condition.kind] at hkind
  · refine Or.inr ⟨hkind, ?_⟩
    have hscope : strategy ≠ .scope := by
      rintro rfl
      cases h with
      | scope hlist hscope =>
          obtain rfl := List.mem_singleton.mp (hlist ▸ hrule)
          simp [hscope, Condition.kind] at hkind
    obtain ⟨s, p, parts, _, _, hrules, hparts, _⟩ := h.exists_parts hscope
    obtain ⟨part, hpart, rfl⟩ := List.mem_map.mp (hrules ▸ hrule)
    exact ⟨part.2, hparts part hpart, conditionText_eq hkind (hparts part hpart)⟩

/-- Whether the condition of a rule can be written with literal values by itself. -/
def CanWrite (q : Query) (rule : Rule) : Prop :=
  match rule.condition with
  | .scope body => ∃ text, (Sql.Statement.ofValue body).literalText = .ok text
  | .mapping _ | .fragment _ => ∀ e, q.ownExpr rule = .ok (some e) → e.IsWritable

theorem canWrite_iff (hkind : rule.condition.kind ≠ .scope) :
    q.CanWrite rule ↔ ∀ e, q.ownExpr rule = .ok (some e) → e.IsWritable := by
  unfold CanWrite
  cases hcondition : rule.condition with
  | mapping tree => rfl
  | fragment body => rfl
  | scope body => simp [hcondition, Condition.kind] at hkind

theorem BuiltBy.exists_conditionText_iff (h : q.BuiltBy strategy built) (hrule : rule ∈ q.rules) :
    (∃ text, q.conditionText rule = .ok text) ↔ q.CanWrite rule := by
  rcases h.conditionText_cases hrule with
    ⟨body, hscope, htext⟩ | ⟨hkind, condition, hexpr, htext⟩
  · simp only [htext, printing_eq_ok, CanWrite, hscope]
  · simp only [htext, printing_eq_ok, exists_ownText_iff, canWrite_iff hkind, hexpr,
      Except.ok.injEq, Option.mem_def]

theorem BuiltBy.failsOnly_conditionText (h : q.BuiltBy strategy built) (hrule : rule ∈ q.rules) :
    FailsOnly ExplainError.IsPrint (q.conditionText rule) := by
  rcases h.conditionText_cases hrule with ⟨_, _, htext⟩ | ⟨_, _, _, htext⟩ <;>
    exact htext ▸ failsOnly_printing _

/-! ## The text of the filter -/

theorem isWritable_getD {condition : Option Expr} (h : ∀ e ∈ condition, e.IsWritable) :
    (condition.getD (.const true)).IsWritable := by
  cases condition with
  | none => exact Expr.isWritable_const true
  | some e => exact h e rfl

/-- The filter of a statement can be written if the conditions of all rules can. -/
theorem BuiltBy.isWritable (h : q.BuiltBy strategy built)
    (hrules : ∀ rule ∈ q.rules, ∀ e, q.ownExpr rule = .ok (some e) → e.IsWritable) {s : Select}
    {p : Expr} (hstatement : built.statement = .select s) (hp : s.filter = some p)
    (hscope : strategy ≠ .scope) : p.IsWritable := by
  cases h with
  | scope => exact (hscope rfl).elim
  | denied hnil hentity =>
      obtain rfl := Sql.Statement.select.inj hstatement
      obtain rfl := Option.some.inj hp
      exact Expr.isWritable_const false
  | proxied hne h =>
      obtain rfl := Sql.Statement.select.inj hstatement
      obtain rfl := Option.some.inj (h.filter_eq.symm.trans hp)
      refine (subjectPredicate_kept Expr.kept_isWritable h.predicate_eq
        fun rule hrule e he => ⟨guardedExpr_isCondition (h.mergeable rule hrule) he, ?_⟩).2
      obtain ⟨subject, key, condition, hsubject, _, hexpr, rfl⟩ := guardedExpr_cases he
      -- the guard adds a null test of the key, which holds no value
      refine (Expr.kept_isWritable.guarded ⟨trivial, Expr.isWritable_nullTest true key⟩
        ⟨?_, isWritable_getD fun e he => hrules rule hrule e ?_⟩).2
      · cases condition with
        | none => trivial
        | some e => exact ruleExpr_isCondition (h.mergeable rule hrule) hexpr e rfl
      · rw [ownExpr_of_proxySubject h.isProxy hsubject, hexpr, he]
  | merged hproxy hmergeable hpredicate h =>
      obtain rfl := Sql.Statement.select.inj hstatement
      obtain rfl := Option.some.inj ((joinedStatement_joins h).2.1.symm.trans hp)
      refine (predicate_kept Expr.kept_isWritable hmergeable hpredicate
        fun rule hrule condition hexpr e he => ?_).2
      refine ⟨ruleExpr_isCondition (hmergeable rule hrule) hexpr e he, hrules rule hrule e ?_⟩
      rw [ownExpr_of_not_isProxy hproxy, hexpr, he]
  | fallback hproxy hpredicate h =>
      obtain rfl := Sql.Statement.select.inj hstatement
      obtain rfl := Option.some.inj ((joinedStatement_joins h).2.1.symm.trans hp)
      simp only [unionPredicate, Outcome.bind_eq_ok, Outcome.pure_eq_ok] at hpredicate
      obtain ⟨exprs, hexprs, rfl⟩ := hpredicate
      refine Expr.IsWritable.disjunction
        (List.forall_mem_cons.mpr ⟨Expr.isWritable_const false, fun e he => ?_⟩)
      obtain ⟨rule, hrule, hexpr⟩ := Outcome.exists_of_mem_mapM hexprs he
      obtain ⟨condition, hcondition, hexpr⟩ := Outcome.bind_eq_ok.mp hexpr
      obtain rfl := Outcome.pure_eq_ok.mp hexpr
      exact isWritable_getD fun e he =>
        hrules rule hrule e (by rw [ownExpr_of_not_isProxy hproxy, hcondition, he])

/-! ## The explanation -/

theorem exists_explainRule_iff :
    (∃ entry, q.explainRule rule = .ok entry) ↔ ∃ text, q.conditionText rule = .ok text := by
  simp only [explainRule, Outcome.bind_eq_ok, Outcome.pure_eq_ok]
  constructor
  · rintro ⟨_, text, htext, rfl⟩
    exact ⟨text, htext⟩
  · rintro ⟨text, htext⟩
    exact ⟨_, text, htext, rfl⟩

/-- The strategy is that of a scope if a rule has one. -/
theorem kind_ne_scope (h : q.strategy ≠ .scope) (hrule : rule ∈ q.rules) :
    rule.condition.kind ≠ .scope := by
  have hscopes : q.scopes = [] := by
    by_contra hne
    exact h (by simp [strategy, hne])
  rcases q.scopes_cases with ⟨hnone, _⟩ | ⟨_, _, _, _, _, hcons⟩
  · exact scopeRule?_eq_none.mp hnone rule hrule
  · rw [hscopes] at hcons
    cases hcons

/-- The filter can be built once more, and written if the conditions of all rules can. -/
theorem BuiltBy.exists_filter (h : q.BuiltBy q.strategy built) :
    ∃ filter, q.statementFilter = .ok filter ∧
      ((∀ rule ∈ q.rules, q.CanWrite rule) → ∃ text, ownText filter = .ok text) := by
  rcases h.statementFilter_eq with ⟨_, hfilter⟩ | ⟨hscope, s, p, hstatement, hp, hfilter⟩
  · exact ⟨none, hfilter, fun _ => ⟨"", rfl⟩⟩
  · refine ⟨some p, hfilter, fun hrules => exists_ownText_iff.mpr fun e he => ?_⟩
    obtain rfl := Option.some.inj he
    exact h.isWritable (fun rule hrule => (canWrite_iff (kind_ne_scope hscope hrule)).mp
      (hrules rule hrule)) hstatement hp hscope

section Explain

variable (h : q.records = .ok built)
include h

/-- A query that does not fail can be explained exactly if its statement and the conditions of its
rules can be written. -/
theorem exists_explain_iff : (∃ x, q.explain = .ok x) ↔
    (∃ text, built.statement.literalText = .ok text) ∧ ∀ rule ∈ q.rules, q.CanWrite rule := by
  have hbuilt := builtBy_of_records h
  have hstatement : q.statement = .ok built.statement := Outcome.map_eq_ok.mpr ⟨built, h, rfl⟩
  have hrules : (∃ entries, q.rules.mapM q.explainRule = .ok entries) ↔
      ∀ rule ∈ q.rules, q.CanWrite rule := by
    rw [Outcome.exists_mapM_iff]
    exact forall₂_congr fun rule hrule =>
      exists_explainRule_iff.trans (hbuilt.exists_conditionText_iff hrule)
  obtain ⟨filter, hfilter, hpredicate⟩ := hbuilt.exists_filter
  rw [explain_eq, ← hrules]
  simp only [Outcome.bind_eq_ok, Outcome.pure_eq_ok, explaining_eq_ok, printing_eq_ok]
  constructor
  · rintro ⟨x, statement, hsame, _, _, entries, hentries, _, _, text, htext, _⟩
    obtain rfl := Except.ok.inj (hstatement.symm.trans hsame)
    exact ⟨⟨text, htext⟩, entries, hentries⟩
  · rintro ⟨⟨text, htext⟩, entries, hentries⟩
    obtain ⟨predicate, hp⟩ := hpredicate (hrules.mp ⟨entries, hentries⟩)
    exact ⟨_, _, hstatement, filter, hfilter, entries, hentries, predicate, hp, text, htext, rfl⟩

/-- If it cannot be explained then because something cannot be written. -/
theorem failsOnly_explain : FailsOnly ExplainError.IsPrint q.explain := by
  have hbuilt := builtBy_of_records h
  have hstatement : q.statement = .ok built.statement := Outcome.map_eq_ok.mpr ⟨built, h, rfl⟩
  obtain ⟨filter, hfilter, _⟩ := hbuilt.exists_filter
  rw [explain_eq, hstatement, hfilter]
  refine (FailsOnly.ok _).bind fun statement _ => (FailsOnly.ok _).bind fun filter _ => ?_
  refine (FailsOnly.mapM fun rule hrule => ?_).bind fun entries _ =>
    (failsOnly_printing _).bind fun predicate _ => (failsOnly_printing _).bind fun text _ => .ok _
  exact (hbuilt.failsOnly_conditionText hrule).bind fun _ _ => .ok _

end Explain

/-- A query that fails is explained by the same failure. One that does not fail can be explained
exactly if its statement and the own condition of each rule can be written with literal values, and
else the failure is one of writing. -/
theorem explain_outcome :
    (∀ e, q.records = .error e → q.explain = .error (.query e)) ∧
    ∀ built, q.records = .ok built →
      ((∃ x, q.explain = .ok x) ↔
        (∃ text, built.statement.literalText = .ok text) ∧ ∀ rule ∈ q.rules, q.CanWrite rule) ∧
      ∀ e, q.explain = .error e → ∃ reason, e = .print reason := by
  refine ⟨fun e h => ?_, fun built h => ⟨exists_explain_iff h, fun e he => ?_⟩⟩
  · have hstatement : q.statement = .error e := by rw [Query.statement, h]; rfl
    rw [explain_eq, hstatement]
    rfl
  · have hprint := failsOnly_explain h e he
    cases e with
    | query e => exact hprint.elim
    | print reason => exact ⟨reason, rfl⟩

/-- All posts are readable, and two of them were before. -/
def numberedReading : Query := Sample.reading "Post"
  [Sample.readRule true "Post" .nil,
    Sample.readRule true "Post" (.literal "id" (.collection .list [.int 1, .int 2]) .nil)]

theorem numberedReading_explained : ∃ built x, numberedReading.records = .ok built ∧
    numberedReading.explain = .ok x := by
  have hrecords : numberedReading.records = .ok _ := rfl
  obtain ⟨hiff, _⟩ := explain_outcome.2 _ hrecords
  have hrules : ∀ rule ∈ numberedReading.rules, numberedReading.CanWrite rule := by
    intro rule hrule
    rcases List.mem_pair.mp hrule with rfl | rfl <;> intro e he
    · cases he
    · obtain rfl := Option.some.inj (Except.ok.inj he)
      exact Expr.exists_literalText_iff.mp ⟨_, rfl⟩
  obtain ⟨x, hx⟩ := hiff.mpr ⟨⟨_, rfl⟩, hrules⟩
  exact ⟨_, x, hrecords, hx⟩

/-- All posts are readable, and those with one of two keys were before, one of which is a text. -/
def mixedReading : Query := Sample.reading "Post"
  [Sample.readRule true "Post" .nil,
    Sample.readRule true "Post" (.literal "id" (.collection .list [.int 1, .str "x"]) .nil)]

/-- Categories below one with a label are readable. -/
def childReading : Query := Sample.reading "Category"
  [Sample.readRule true "Category"
    (.association "parent" (.literal "label" (.str "a") .nil) .nil)]

/-- A query cannot be explained for a condition that is not left in its statement, or because its
statement, which can be built, cannot be written. -/
theorem built_not_explained :
    (∃ built text, mixedReading.records = .ok built ∧
      built.statement.literalText = .ok text ∧
      mixedReading.explain = .error (.print .notLiteral)) ∧
    ∃ built, childReading.records = .ok built ∧
      childReading.explain = .error (.print (.selfJoin "categories")) :=
  ⟨⟨_, _, rfl, rfl, rfl⟩, _, rfl, rfl⟩

end Query

end RowPolicy
