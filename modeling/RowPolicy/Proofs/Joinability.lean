import RowPolicy.Proofs.Denial
import RowPolicy.Proofs.Refusal
import RowPolicy.Proofs.Resolving
import RowPolicy.Proofs.Selection

/-!
# Joining once the filter is built

Flattening a condition looks up every association on the entity reached so far. The joins of a
query are looked up in the tree merged from the conditions of all rules. Both reach the same
entities, so once the filter of a query is built no name in its joins can be unknown.
-/

namespace RowPolicy

open Sql (Select)
open Outcome (FailsOnly)

/-- Whether an error is about neither a condition nor a name in one. -/
def QueryError.IsUnfiltered : QueryError → Prop
  | .filter _ => False
  | _ => True

/-! ## Entities without a table -/

namespace Naming

variable {s : Schema} {entity : String} {tree : ConditionTree} {acc d : Dict String Value}

/-- On an entity that is not stored no association can be looked up. -/
theorem associations_eq_nil (hentity : s.entity? entity = none) {qualify : Bool}
    (h : s.naming.flattenInto qualify entity tree acc = .ok d) : tree.associations = .nil := by
  induction tree generalizing acc with
  | nil => rfl
  | literal name value rest ih =>
      obtain ⟨key, _, hrest⟩ := Outcome.bind_eq_ok.mp h
      exact ih hrest
  | association name inner rest _ _ =>
      obtain ⟨mid, hmid, _⟩ := Outcome.bind_eq_ok.mp h
      obtain ⟨target, htarget, _⟩ := Outcome.bind_eq_ok.mp hmid
      obtain ⟨e, _, hknown, _⟩ := Schema.target_eq_ok.mp htarget
      rw [hentity] at hknown
      cases hknown

end Naming

namespace Query

variable {q : Query} {rule : Rule} {e : Entity} {condition : Option Sql.Expr} {p : Sql.Expr}

theorem associations_of_ruleExpr (hentity : q.schema.entity? q.entity = none)
    (h : q.ruleExpr rule q.entity = .ok condition) : rule.condition.associations = .nil := by
  cases hcondition : rule.condition with
  | fragment body => rfl
  | scope body => rfl
  | mapping tree =>
      rcases ruleExpr_cases hcondition h with ⟨hempty, _⟩ | ⟨_, flat, _, hflat, _⟩
      · cases tree with
        | nil => rfl
        | literal name value rest => cases hempty
        | association name inner rest => cases hempty
      · exact Naming.associations_eq_nil hentity hflat

theorem isResolved_associations (hproxy : q.isProxy = false)
    (hentity : q.schema.entity? q.entity = some e)
    (h : q.ruleExpr rule q.entity = .ok condition) :
    rule.condition.associations.IsResolved q.schema e := by
  cases hcondition : rule.condition with
  | fragment body => trivial
  | scope body => trivial
  | mapping tree => exact isResolved_of_ruleExpr hproxy hentity hcondition h

/-! ## The joins of a query -/

/-- Whether every association name in the joins of a query resolves on the entity reached. -/
def HasResolvedJoins (q : Query) : Prop :=
  q.joins = none ∨ ∃ e, q.schema.entity? q.entity = some e ∧
    (q.joins.getD .nil).toTree.IsResolved q.schema e

theorem hasResolvedJoins (hproxy : q.isProxy = false)
    (hexprs : ∀ rule ∈ q.rules, ∃ condition, q.ruleExpr rule q.entity = .ok condition) :
    q.HasResolvedJoins := by
  cases hentity : q.schema.entity? q.entity with
  | none =>
      -- a condition with associations could not have been flattened
      refine Or.inl (joins_of_associations fun rule hrule => ?_)
      obtain ⟨condition, hexpr⟩ := hexprs rule hrule
      exact associations_of_ruleExpr hentity hexpr
  | some e =>
      refine Or.inr ⟨e, hentity, isResolved_joins fun rule hrule => ?_⟩
      obtain ⟨condition, hexpr⟩ := hexprs rule hrule
      exact isResolved_associations hproxy hentity hexpr

namespace HasResolvedJoins

theorem exists_applyJoins (h : q.HasResolvedJoins) (statement : Select) :
    ∃ joined, q.schema.applyJoins (q.joins.getD .nil) q.entity statement = .ok joined := by
  rcases h with hnone | ⟨e, hentity, hresolved⟩
  · rw [hnone]
    exact ⟨statement, rfl⟩
  · exact Schema.exists_applyJoins hentity hresolved statement

theorem exists_crossesMany (h : q.HasResolvedJoins) :
    ∃ many, q.schema.crossesMany (q.joins.getD .nil) q.entity = .ok many := by
  rcases h with hnone | ⟨e, hentity, hresolved⟩
  · rw [hnone]
    exact ⟨false, rfl⟩
  · obtain ⟨many, hmany, _⟩ := Schema.exists_crossesMany hentity hresolved
    exact ⟨many, hmany⟩

/-- Only an entity that is not stored has no joined statement. -/
theorem failsOnly_joinedStatement (h : q.HasResolvedJoins) :
    FailsOnly (· = .notStored q.entity) (q.joinedStatement p) := by
  refine failsOnly_rowsWhere.bind fun rows _ => ?_
  obtain ⟨joined, hjoined⟩ := h.exists_applyJoins rows
  obtain ⟨many, hmany⟩ := h.exists_crossesMany
  rw [hjoined, hmany]
  exact .ok _

end HasResolvedJoins

theorem hasResolvedJoins_of_predicate (hproxy : q.isProxy = false) (h : q.predicate = .ok p) :
    q.HasResolvedJoins :=
  hasResolvedJoins hproxy (exists_ruleExpr h)

theorem hasResolvedJoins_of_unionPredicate (hproxy : q.isProxy = false)
    (h : q.unionPredicate = .ok p) : q.HasResolvedJoins := by
  apply hasResolvedJoins hproxy
  obtain ⟨parts, hparts, _⟩ := Outcome.bind_eq_ok.mp h
  intro rule hrule
  obtain ⟨part, hpart⟩ := Outcome.exists_mapM_iff.mp ⟨parts, hparts⟩ rule hrule
  obtain ⟨condition, hexpr, _⟩ := Outcome.bind_eq_ok.mp hpart
  exact ⟨condition, hexpr⟩

/-! ## The stages of a statement -/

theorem failsOnly_scopeBody : FailsOnly QueryError.IsUnfiltered q.scopeBody := by
  unfold scopeBody
  split
  · exact .ok _
  · exact .ok _
  next rule _ _ _ _ =>
    refine FailsOnly.bind ?_ fun action _ => FailsOnly.bind ?_ fun subject _ => .error trivial
    · cases rule.actions.head? with
      | none => exact .error trivial
      | some action => exact .ok action
    · cases rule.primarySubject? with
      | none => exact .error trivial
      | some subject => exact .ok subject

/-- Taking a scope for the statement builds no filter. -/
theorem failsOnly_records_of_scopes (hscopes : q.scopes ≠ []) :
    FailsOnly QueryError.IsUnfiltered q.records := by
  refine failsOnly_scopeBody.bind fun supplied hsupplied => ?_
  have hscope : q.strategy = .scope := by simp [strategy, hscopes]
  cases supplied with
  | none => exact (scopeBody_of_strategy hscope hsupplied).elim
  | some body =>
      split
      next => exact .error trivial
      next => exact .ok _
      next heq => cases heq

theorem failsOnly_emptyRecords : FailsOnly QueryError.IsUnfiltered q.emptyRecords := by
  unfold emptyRecords
  split
  · exact .error trivial
  · have honly : FailsOnly QueryError.IsUnfiltered (q.rowsWhere (.const false)) := by
      refine failsOnly_rowsWhere.mono ?_
      rintro _ rfl
      trivial
    exact honly.bind fun _ _ => .ok _

/-- If the joins resolve once a filter is built, only the filter can be a reason to fail for a
condition or a name. -/
theorem eq_error_of_joinedStatement {filter : Except QueryError Sql.Expr} {err : FilterError}
    (hjoins : ∀ p, filter = .ok p → q.HasResolvedJoins)
    (h : (do
      let p ← filter
      return (⟨.select (← q.joinedStatement p), some p, q.joins⟩ : Records)) =
        .error (.filter err)) : filter = .error (.filter err) := by
  cases hfilter : filter with
  | error e =>
      rw [hfilter] at h
      cases h
      rfl
  | ok p =>
      rw [hfilter] at h
      have honly : FailsOnly (· = QueryError.notStored q.entity) (q.joinedStatement p) :=
        (hjoins p hfilter).failsOnly_joinedStatement
      cases honly.bind (fun s _ => .ok (⟨.select s, some p, q.joins⟩ : Records)) _ h

/-- On an ordinary entity a name that is unknown, or a condition that cannot be built, comes to
light while the filter is built. -/
theorem filter_fails_of_records (hproxy : q.isProxy = false) {err : FilterError}
    (h : q.records = .error (.filter err)) :
    (q.strategy = .merged ∧ q.predicate = .error (.filter err)) ∨
      (q.strategy = .fallback ∧ q.unionPredicate = .error (.filter err)) := by
  by_cases hscopes : q.scopes = []
  · rw [records_of_scopes hscopes] at h
    by_cases hne : q.rules = []
    · rw [if_pos (by simp [hne])] at h
      exact (failsOnly_emptyRecords _ h).elim
    · have hnone : q.proxy? = none := by simpa [isProxy] using hproxy
      rw [if_neg (by simpa using hne), hnone] at h
      rw [strategy_of_scopes hscopes hne, hproxy]
      cases hmergeable : q.isMergeable with
      | true =>
          simp only [hmergeable, if_true] at h
          refine Or.inl ⟨by simp, eq_error_of_joinedStatement (fun p hp => ?_) h⟩
          exact hasResolvedJoins_of_predicate hproxy hp
      | false =>
          simp only [hmergeable, Bool.false_eq_true, if_false] at h
          unfold fallbackRecords at h
          split at h
          next => cases h
          all_goals
            refine Or.inr ⟨by simp, eq_error_of_joinedStatement (fun p hp => ?_) h⟩
            exact hasResolvedJoins_of_unionPredicate hproxy hp
  · exact (failsOnly_records_of_scopes hscopes _ h).elim

/-- On an ordinary entity every name in the joins of a query resolves once its filter is built,
combined or side by side. Joining any statement then succeeds, and so does looking for a join
that leads to many rows. So where there are no records for an unknown name, or for another fault
of a condition, it is the filter of the query's strategy that could not be built. -/
theorem built_filter_joins (hproxy : q.isProxy = false) :
    (((∃ p, q.predicate = .ok p) ∨ ∃ p, q.unionPredicate = .ok p) →
      q.HasResolvedJoins ∧
      (∀ statement, ∃ joined,
        q.schema.applyJoins (q.joins.getD .nil) q.entity statement = .ok joined) ∧
      ∃ many, q.schema.crossesMany (q.joins.getD .nil) q.entity = .ok many) ∧
    ∀ err, q.records = .error (.filter err) →
      (q.strategy = .merged ∧ q.predicate = .error (.filter err)) ∨
        (q.strategy = .fallback ∧ q.unionPredicate = .error (.filter err)) := by
  refine ⟨fun hfilter => ?_, fun err h => filter_fails_of_records hproxy h⟩
  have hresolved : q.HasResolvedJoins := by
    rcases hfilter with ⟨p, hp⟩ | ⟨p, hp⟩
    · exact hasResolvedJoins_of_predicate hproxy hp
    · exact hasResolvedJoins_of_unionPredicate hproxy hp
  exact ⟨hresolved, hresolved.exists_applyJoins, hresolved.exists_crossesMany⟩

/-- Comments on posts by banned users are not readable; those on posts by users of an
organization are. -/
def moderatedReading : Query := Sample.reading "Comment"
  [Sample.readRule false "Comment"
      (.association "post" (.association "author" (.literal "banned" (.bool true) .nil) .nil) .nil),
    Sample.readRule true "Comment" (.association "post"
      (.literal "is_published" (.bool true) <| .association "author"
        (.association "organization" (.literal "name" (.str "Acme") .nil) .nil) .nil) .nil)]

/-- A comment has no author of its own; the rule stands beside a condition given as text. -/
def misnamedReading : Query := Sample.reading "Comment"
  [⟨true, ["read"], [.kind "Comment"], .fragment (.expr (.fragment "approved"))⟩,
    Sample.readRule true "Comment" (.association "post" (.association "writer" .nil .nil) .nil)]

theorem moderatedReading_joins :
    (moderatedReading.HasResolvedJoins ∧ ∃ joins, moderatedReading.joins = some joins ∧
      (∀ statement, ∃ joined,
        Sample.schema.applyJoins joins "Comment" statement = .ok joined)) ∧
    misnamedReading.strategy = .fallback ∧
      misnamedReading.unionPredicate =
        .error (.filter (.schema (.unknown "Post" "writer"))) := by
  have hpredicate : moderatedReading.predicate = .ok _ := rfl
  have hrecords : misnamedReading.records =
    .error (.filter (.schema (.unknown "Post" "writer"))) := rfl
  obtain ⟨hresolved, hjoins, _⟩ :=
    (built_filter_joins (q := moderatedReading) rfl).1 (Or.inl ⟨_, hpredicate⟩)
  rcases (built_filter_joins (q := misnamedReading) rfl).2 _ hrecords with ⟨hmerged, _⟩ | hfails
  · cases hmerged
  · exact ⟨⟨hresolved, _, rfl, hjoins⟩, hfails⟩

end Query

end RowPolicy
