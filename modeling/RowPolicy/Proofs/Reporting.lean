import RowPolicy.Proofs.Explaining

/-!
# What an explanation reports

An explanation shows the statement that is built for the query, the filter of that statement, the
list along which it is joined, and for each rule the condition from which the filter is combined.
-/

namespace RowPolicy

open Sql (Expr Select)

/-- Whether an entry is about a rule and shows a text as the rule's condition. -/
structure RuleExplanation.Shows (entry : RuleExplanation) (rule : Rule) (text : String) :
    Prop where
  verb_eq : entry.verb = .str rule.verb
  actions_eq : entry.actions = .texts rule.actions
  subjects_eq : entry.subjects = .texts (rule.subjects.map Subject.name)
  kind_eq : entry.conditionKind = .str rule.condition.kind.name
  condition_eq : entry.condition = .str text

namespace Query

variable {q : Query} {rule : Rule} {x : Explanation} {entry : RuleExplanation}

/-- The entry for a rule shows the text of its condition. -/
theorem explainRule_eq_ok (h : q.explainRule rule = .ok entry) :
    ∃ text, q.conditionText rule = .ok text ∧ entry.Shows rule text := by
  simp only [explainRule, Outcome.bind_eq_ok, Outcome.pure_eq_ok] at h
  obtain ⟨text, htext, rfl⟩ := h
  exact ⟨text, htext, rfl, rfl, rfl, rfl, rfl⟩

/-- The entries for rules without a scope show the rules' own conditions. -/
theorem forall₂_shows {parts : List (Rule × Option Expr)} {entries : List RuleExplanation}
    (hkinds : ∀ part ∈ parts, part.1.condition.kind ≠ .scope)
    (hparts : ∀ part ∈ parts, q.ownExpr part.1 = .ok part.2)
    (h : (parts.map Prod.fst).mapM q.explainRule = .ok entries) :
    List.Forall₂ (fun part entry => ∃ own, ownText part.2 = .ok own ∧ entry.Shows part.1 own)
      parts entries := by
  rw [Outcome.mapM_eq_ok, List.forall₂_map_left_iff] at h
  induction h with
  | nil => exact .nil
  | cons hentry _ ih =>
      obtain ⟨hkind, hkinds⟩ := List.forall_mem_cons.mp hkinds
      obtain ⟨hexpr, hparts⟩ := List.forall_mem_cons.mp hparts
      obtain ⟨own, hown, hshows⟩ := explainRule_eq_ok hentry
      rw [conditionText_eq hkind hexpr, printing_eq_ok] at hown
      exact .cons ⟨own, hown, hshows⟩ (ih hkinds hparts)

/-- The statement that is merged or put side by side has the joins of the list that is reported. -/
theorem BuiltBy.joins_eq {strategy : Strategy} {built : Records} {s : Select}
    (h : q.BuiltBy strategy built) (hstrategy : strategy = .merged ∨ strategy = .fallback)
    (hs : built.statement = .select s) :
    s.joins = (q.joins.getD .nil).toTree.joins q.schema s.entity := by
  cases h with
  | scope => simp at hstrategy
  | denied => simp at hstrategy
  | proxied => simp at hstrategy
  | merged _ _ _ h =>
      obtain rfl := Sql.Statement.select.inj hs
      exact (joinedStatement_joins h).2.2
  | fallback _ _ h =>
      obtain rfl := Sql.Statement.select.inj hs
      exact (joinedStatement_joins h).2.2

/-- An explanation reports the statement that is built. It says the scope if a rule supplies the
statement, and else the filter of the statement, the conditions of the rules from which it is
combined, and the list along which the statement is joined, if the strategy joins along one. -/
theorem explanation_reports (h : q.explain = .ok x) : ∃ built text, q.records = .ok built ∧
    built.statement.literalText = .ok text ∧ x.statement = .str text ∧
    x.entity = .str q.entity ∧ x.action = q.action ∧ x.strategy = .str q.strategy.name ∧
    ((q.strategy = .scope ∧ ∃ rule body entry, q.rules = [rule] ∧ rule.condition = .scope body ∧
        built.statement = .ofValue body ∧ x.rules = [entry] ∧ entry.Shows rule text ∧
        x.predicate = .str "" ∧ x.joins = none) ∨
      (q.strategy ≠ .scope ∧ ∃ s p predicate parts, built.statement = .select s ∧
        s.filter = some p ∧ p.literalText = .ok predicate ∧ x.predicate = .str predicate ∧
        (if q.strategy = .merged ∨ q.strategy = .fallback then
          x.joins = q.joins ∧ s.joins = (q.joins.getD .nil).toTree.joins q.schema s.entity
        else x.joins = none) ∧
        parts.map Prod.fst = q.rules ∧ q.CombinedTo q.strategy parts p ∧
        (∀ part ∈ parts, q.ownExpr part.1 = .ok part.2 ∧
          (part.1.condition.isBlank = true ↔ part.2 = none)) ∧
        List.Forall₂ (fun part entry => ∃ own, ownText part.2 = .ok own ∧ entry.Shows part.1 own)
          parts x.rules)) := by
  rw [explain_eq] at h
  simp only [Outcome.bind_eq_ok, Outcome.pure_eq_ok, explaining_eq_ok, printing_eq_ok] at h
  obtain ⟨statement, hstatement, filter, hfilter, entries, hentries, predicate, hpredicate, text,
    htext, rfl⟩ := h
  obtain ⟨built, hrecords, rfl⟩ := Outcome.map_eq_ok.mp hstatement
  have hbuilt := builtBy_of_records hrecords
  refine ⟨built, text, hrecords, htext, rfl, rfl, rfl, rfl, ?_⟩
  rcases hbuilt.statementFilter_eq with ⟨hscope, hnone⟩ | ⟨hscope, s, p, hs, hp, hsome⟩
  · refine Or.inl ⟨hscope, ?_⟩
    obtain rfl := Except.ok.inj (hnone.symm.trans hfilter)
    obtain rfl := Except.ok.inj hpredicate
    rw [hscope] at hbuilt
    cases hbuilt with
    | @scope rule body hlist hcondition =>
      rw [hlist] at hentries
      obtain ⟨entry, entries, hentry, hnil, rfl⟩ :=
        List.forall₂_cons_left_iff.mp (Outcome.mapM_eq_ok.mp hentries)
      obtain rfl := List.forall₂_nil_left_iff.mp hnil
      -- the scope is written twice, as the statement and as the condition of its rule
      obtain ⟨own, hown, hshows⟩ := explainRule_eq_ok hentry
      rw [conditionText, hcondition] at hown
      obtain rfl := Except.ok.inj (htext.symm.trans (printing_eq_ok.mp hown))
      exact ⟨rule, body, entry, hlist, hcondition, rfl, rfl, hshows, rfl, by simp [hscope]⟩
  · refine Or.inr ⟨hscope, ?_⟩
    obtain rfl := Except.ok.inj (hsome.symm.trans hfilter)
    obtain ⟨s', p', parts, hs', hp', hrules, hparts, hcombined⟩ := hbuilt.exists_parts hscope
    obtain rfl := Sql.Statement.select.inj (hs.symm.trans hs')
    obtain rfl := Option.some.inj (hp.symm.trans hp')
    refine ⟨s, p, predicate, parts, hs, hp, hpredicate, rfl, ?_, hrules, hcombined,
      fun part hpart => ⟨hparts part hpart, isBlank_iff (hparts part hpart)⟩, ?_⟩
    · split
      next hstrategy => exact ⟨rfl, hbuilt.joins_eq hstrategy hs⟩
      next => rfl
    · refine forall₂_shows (fun part hpart => kind_ne_scope hscope ?_) hparts (hrules ▸ hentries)
      exact hrules ▸ List.mem_map_of_mem hpart

/-- The posts of one author are readable, apart from those that are not published. -/
def authoredReading : Query := Sample.reading "Post"
  [Sample.readRule false "Post" (.literal "is_published" (.bool false) .nil),
    Sample.readRule true "Post" (.association "author" (.literal "name" (.str "Alice") .nil) .nil)]

theorem authoredReading_reported : ∃ x built text, authoredReading.explain = .ok x ∧
    x.predicate = .str "(posts.is_published = false) IS NOT true AND users.name = 'Alice'" ∧
    authoredReading.records = .ok built ∧ built.statement.literalText = .ok text ∧
    x.statement = .str text := by
  have hexplain : authoredReading.explain = .ok _ := rfl
  obtain ⟨built, text, hrecords, htext, hstatement, _⟩ := explanation_reports hexplain
  exact ⟨_, built, text, hexplain, rfl, hrecords, htext, hstatement⟩

end Query

end RowPolicy
