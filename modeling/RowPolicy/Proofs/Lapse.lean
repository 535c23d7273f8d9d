import RowPolicy.Proofs.Refusal
import RowPolicy.Proofs.Relevance
import RowPolicy.Session

/-!
# Failures that no request meets

A query may fail because a rule has no action or no subject that could be named, or because a text
would have to be negated. Neither can happen to a query made for a policy: rules without an action
or a subject are relevant for no request, and a text is refused before its opposite is needed.
-/

namespace RowPolicy

open Outcome (FailsOnly)

/-- Whether a failure is a lapse of the query and not a fault of what it was asked: a rule has
no action or subject to name, or the opposite of a text is needed. -/
def QueryError.IsLapse : QueryError → Prop
  | .noAction | .noSubject | .filter .fragmentNegated => True
  | _ => False

theorem QueryError.IsOfGivenPart.not_isLapse {e : QueryError} (h : e.IsOfGivenPart) :
    ¬ e.IsLapse := by
  cases e with
  | filter e =>
      intro hlapse
      cases e <;> first | exact h rfl | exact hlapse
  | notStored entity => exact id
  | _ => exact h.elim

/-! ## Relevant rules -/

section Relevant

variable {s : Schema} {p : Policy} {rule : Rule} {rules : List Rule} {action : Value}
  {subject : Option Subject}

/-- A rule without an action covers none, and one without a subject covers none. -/
theorem Policy.isNamed_of_isRelevant (h : p.isRelevant s action subject rule = true) :
    rule.IsNamed := by
  obtain ⟨haction, hsubject⟩ := Bool.and_eq_true_iff.mp h
  constructor
  · intro hnil
    have hexpand : p.aliases.expand [] = [] := by rw [Aliases.expand, Aliases.expandFrom]
    unfold Rule.coversAction Rule.managesAll at haction
    rw [hnil, hexpand] at haction
    split at haction <;> cases haction
  · intro hnil
    rw [Rule.coversSubject, hnil] at hsubject
    cases hsubject

theorem Policy.isNamed_of_relevant (h : p.relevant s action subject = .ok rules) :
    ∀ rule ∈ rules, rule.IsNamed := by
  unfold relevant at h
  split at h
  · obtain rfl := Except.ok.inj h
    intro rule hrule
    exact isNamed_of_isRelevant (List.mem_filter.mp hrule).2
  · cases h

end Relevant

/-! ## Queries for named rules -/

namespace Query

variable {q : Query}

/-- Rules with actions and subjects have no lapse, however their statement is built. -/
theorem failsOnly_records (hnamed : ∀ rule ∈ q.rules, rule.IsNamed) :
    FailsOnly (fun e => ¬ e.IsLapse) q.records := by
  intro e h
  rcases clash_or_failsOnly hnamed with ⟨action, subject, rules, conflict, hclash⟩ |
    ⟨hnil, hfail⟩ | ⟨rule, hrule, _, hempty⟩ | honly
  · obtain rfl := Except.error.inj (h.symm.trans hclash.records_eq)
    exact id
  · obtain rfl := Except.error.inj (h.symm.trans (records_of_nil_of_fail hnil hfail))
    exact id
  · obtain rfl := Except.error.inj (h.symm.trans hempty)
    exact id
  · exact (honly e h).not_isLapse

end Query

namespace Session

variable {s : Session} {schema : Schema} {entity : String} {action : Value}
  {choice : RegistryChoice} {q : Query}

theorem relevant_of_query (h : s.query schema entity action choice = .ok q) :
    s.policy.relevant schema action (some (.kind entity)) = .ok q.rules := by
  obtain ⟨rules, hrules, hq⟩ := Outcome.bind_eq_ok.mp h
  obtain rfl := Outcome.pure_eq_ok.mp hq
  exact hrules

/-- A query made under the rules and aliases that any script leaves, for any action on any entity
and with any configuration and registry: every rule of it names an action and a subject. However
its statement is built, none is asked for that is not there, and no text is negated. -/
theorem query_has_no_lapse (s : Session) (script : List PolicyChange) (schema : Schema)
    (entity : String) (action : Value) (choice : RegistryChoice)
    (h : ({ s with policy := Policy.after script }).query schema entity action choice = .ok q) :
    (∀ rule ∈ q.rules, rule.IsNamed) ∧ ∀ e, q.statement = .error e → ¬ e.IsLapse := by
  have hnamed := Policy.isNamed_of_relevant (relevant_of_query h)
  refine ⟨hnamed, fun e he => ?_⟩
  exact (Query.failsOnly_records hnamed).map e he

/-- Activities may not be read where a text holds. -/
def textDenied : Rule :=
  ⟨false, ["read"], [.kind "Activity"], .fragment (.expr (.fragment "id > 1"))⟩

/-- Two rules that lack an action or a subject are declared before that one. -/
def vagueScript : List PolicyChange :=
  [.declare true [] [.kind "Activity"] (.rows Sample.activity none),
    .declare true ["read"] [] .null, .add textDenied]

theorem vagueScript_relevant : (Policy.after vagueScript).relevant Sample.schema (.str "read")
    (some (.kind "Activity")) = .ok [textDenied] := by
  have hrules : (Policy.after vagueScript).rules.reverse = [textDenied,
      ⟨true, ["read"], [], .mapping .nil⟩,
      ⟨true, [], [.kind "Activity"], .scope (.rows Sample.activity none)⟩] := rfl
  have hvague : ∀ rule : Rule, ¬ rule.IsNamed → ¬ (Policy.after vagueScript).isRelevant
      Sample.schema (.str "read") (some (.kind "Activity")) rule = true :=
    fun rule hrule h => hrule (Policy.isNamed_of_isRelevant h)
  have hkey : (Policy.after vagueScript).canLookUp (.str "read") = true := rfl
  rw [Policy.relevant, if_pos hkey, hrules, List.filter_cons_of_pos, List.filter_cons_of_neg,
    List.filter_cons_of_neg]
  · rfl
  · exact hvague _ (by simp [Rule.IsNamed])
  · exact hvague _ (by simp [Rule.IsNamed])
  · exact Policy.isRelevant_iff.mpr ⟨Or.inr ⟨"read", List.mem_singleton_self _, .refl⟩, _,
      List.mem_singleton_self _, Or.inr (Or.inl rfl)⟩

theorem vagueScript_has_no_lapse : ∃ q e,
    ({ policy := Policy.after vagueScript, globals := ⟨default, Sample.proxies⟩ } : Session).query
      Sample.schema "Activity" (.str "read") .shared = .ok q ∧
    q.rules = [textDenied] ∧ textDenied.IsNamed ∧ q.statement = .error e ∧ ¬ e.IsLapse := by
  have hquery : ({ policy := Policy.after vagueScript, globals := ⟨default, Sample.proxies⟩ } :
      Session).query Sample.schema "Activity" (.str "read") .shared =
        .ok ⟨Sample.schema, "Activity", .str "read", [textDenied], Sample.proxies, default⟩ := by
    rw [query, vagueScript_relevant]
    rfl
  obtain ⟨hnamed, hlapse⟩ :=
    query_has_no_lapse { globals := ⟨default, Sample.proxies⟩ } vagueScript _ _ _ _ hquery
  exact ⟨_, _, hquery, rfl, hnamed textDenied (List.mem_singleton_self _), rfl, hlapse _ rfl⟩

end Session

end RowPolicy
