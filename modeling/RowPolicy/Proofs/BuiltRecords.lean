import RowPolicy.Explanation
import RowPolicy.Proofs.Denial
import RowPolicy.Proofs.Refusal

/-!
# How records are built

The records of a query are built in the way that its strategy says. Unless a scope supplies the
statement, the conditions of all rules can be built, each on the entity of its rule, and the filter
of the statement is what the strategy combines them to.
-/

namespace RowPolicy

open Sql (Expr Select)

/-- A fold that computes something for each element succeeds as the fold over what it
computes. -/
theorem Outcome.exists_foldrM {ε α β γ : Type} {f : α → Except ε β}
    {step : α → γ → Except ε γ} {g : α × β → γ → Except ε γ}
    (hstep : ∀ a acc r, step a acc = .ok r → ∃ b, f a = .ok b ∧ g (a, b) acc = .ok r)
    {as : List α} {start r : γ} (h : as.foldrM step start = .ok r) :
    ∃ parts : List (α × β), parts.map Prod.fst = as ∧ (∀ part ∈ parts, f part.1 = .ok part.2) ∧
      parts.foldrM g start = .ok r := by
  induction as generalizing r with
  | nil => exact ⟨[], rfl, by simp, h⟩
  | cons a rest ih =>
      rw [List.foldrM_cons, Outcome.bind_eq_ok] at h
      obtain ⟨acc, hacc, h⟩ := h
      obtain ⟨parts, hrest, hparts, hfold⟩ := ih hacc
      obtain ⟨b, hb, hg⟩ := hstep a acc r h
      refine ⟨(a, b) :: parts, by simp [hrest], List.forall_mem_cons.mpr ⟨hb, hparts⟩, ?_⟩
      rw [List.foldrM_cons, hfold]
      exact hg

namespace Query

variable {q : Query} {rule : Rule} {strategy : Strategy} {built : Records}

/-- The condition of a rule on the entity of the rule; a blank condition has none. -/
def ownExpr (q : Query) (rule : Rule) : Except QueryError (Option Expr) := do
  q.ruleExpr rule (← q.ruleEntity rule)

/-- A condition of a rule on a proxy, guarded by the key of the rule's subject. -/
def guard (q : Query) (rule : Rule) (condition : Option Expr) : Except QueryError Expr := do
  let key ← liftLookup (q.schema.primaryKey (← q.proxySubject rule))
  return .guarded key (condition.getD (.const true))

theorem ownExpr_eq_none (h : q.ownExpr rule = .ok none) : rule.condition.isBlank = true := by
  obtain ⟨entity, _, hexpr⟩ := Outcome.bind_eq_ok.mp h
  unfold ruleExpr at hexpr
  split at hexpr
  next hblank => exact hblank
  next =>
    obtain ⟨_, _, hexpr⟩ := Outcome.bind_eq_ok.mp hexpr
    obtain ⟨_, _, hexpr⟩ := Outcome.bind_eq_ok.mp hexpr
    cases hexpr

theorem isBlank_iff {condition : Option Expr} (h : q.ownExpr rule = .ok condition) :
    rule.condition.isBlank = true ↔ condition = none := by
  refine ⟨fun hblank => ?_, fun hnone => ownExpr_eq_none (hnone ▸ h)⟩
  obtain ⟨entity, _, hexpr⟩ := Outcome.bind_eq_ok.mp h
  rw [ruleExpr, if_pos hblank] at hexpr
  exact (Except.ok.inj hexpr).symm

/-- A rule on an ordinary entity is resolved there. -/
theorem ownExpr_of_not_isProxy (hproxy : q.isProxy = false) :
    q.ownExpr rule = q.ruleExpr rule q.entity := by
  rw [ownExpr, ruleEntity, hproxy]
  rfl

/-- A rule on a proxy is resolved on its subject. -/
theorem ownExpr_of_proxySubject (hproxy : q.isProxy = true) {subject : String}
    (hsubject : q.proxySubject rule = .ok subject) : q.ownExpr rule = q.ruleExpr rule subject := by
  unfold proxySubject at hsubject
  rw [ownExpr, ruleEntity, hproxy, if_pos rfl]
  split at hsubject
  next => cases hsubject
  next name hname =>
    obtain rfl := Except.ok.inj hsubject
    rw [hname]
    rfl
  next => cases hsubject

/-- A guarded condition is the guard of the rule's condition on its subject. -/
theorem guardedExpr_eq_ok (hproxy : q.isProxy = true) {e : Expr}
    (h : q.guardedExpr rule = .ok e) :
    ∃ condition, q.ownExpr rule = .ok condition ∧ q.guard rule condition = .ok e := by
  obtain ⟨subject, key, condition, hsubject, hkey, hexpr, rfl⟩ := guardedExpr_cases h
  refine ⟨condition, by rw [ownExpr_of_proxySubject hproxy hsubject, hexpr], ?_⟩
  simp only [guard, Outcome.bind_eq_ok, Outcome.pure_eq_ok, liftLookup_eq_ok]
  exact ⟨subject, hsubject, key, hkey, rfl⟩

/-! ## The strategies -/

/-- What the records of a query are by the strategy by which they are built. -/
inductive BuiltBy (q : Query) : Strategy → Records → Prop
  /-- The only rule supplies the statement. -/
  | scope {rule : Rule} {body : Value} (hlist : q.rules = [rule])
      (hscope : rule.condition = .scope body) : BuiltBy q .scope ⟨.ofValue body, none, none⟩
  /-- No row is selected. -/
  | denied {e : Entity} (hnil : q.rules = []) (hentity : q.schema.entity? q.entity = some e) :
      BuiltBy q .denyByDefault
        ⟨.select { Select.ofEntity e with filter := some (.const false) }, some (.const false),
          none⟩
  /-- The subjects of the rules are joined. -/
  | proxied {s : Select} {p : Expr} (hne : q.rules ≠ []) (h : q.IsProxied s p) :
      BuiltBy q .proxy ⟨.select s, none, none⟩
  /-- The conditions, which are mappings, are combined by precedence. -/
  | merged {s : Select} {p : Expr} (hproxy : q.isProxy = false)
      (hrules : ∀ rule ∈ q.rules, rule.condition.isMergeable = true) (hp : q.predicate = .ok p)
      (h : q.joinedStatement p = .ok s) : BuiltBy q .merged ⟨.select s, some p, q.joins⟩
  /-- The conditions stand side by side. -/
  | fallback {s : Select} {p : Expr} (hproxy : q.isProxy = false) (hp : q.unionPredicate = .ok p)
      (h : q.joinedStatement p = .ok s) : BuiltBy q .fallback ⟨.select s, some p, q.joins⟩

theorem builtBy_of_records (h : q.records = .ok built) : q.BuiltBy q.strategy built := by
  by_cases hscopes : q.scopes = []
  · by_cases hne : q.rules = []
    · have hstrategy : q.strategy = .denyByDefault := by simp [strategy, hscopes, hne]
      rw [hstrategy]
      rw [records_of_scopes hscopes, if_pos (by simp [hne])] at h
      obtain ⟨e, hentity, rfl⟩ := exists_entity_of_emptyRecords h
      exact .denied hne hentity
    have hempty : q.rules.isEmpty = false := by simpa using hne
    rw [strategy_of_scopes hscopes hne]
    rw [records_of_scopes hscopes, hempty, if_neg (by simp)] at h
    cases hproxy : q.proxy? with
    | some field =>
        rw [hproxy] at h
        have hisProxy : q.isProxy = true := by simp [isProxy, hproxy]
        obtain ⟨s, hs, hrecords⟩ := Outcome.bind_eq_ok.mp h
        obtain rfl := Outcome.pure_eq_ok.mp hrecords
        obtain ⟨p, hproxied⟩ := exists_isProxied hproxy hs
        rw [if_pos hisProxy]
        exact .proxied hne hproxied
    | none =>
        rw [hproxy] at h
        have hnoProxy := isProxy_eq_false hproxy
        simp only [hnoProxy, Bool.false_eq_true, if_false]
        dsimp only at h
        split at h
        next hmergeable =>
          obtain ⟨p, s, hp, hs, rfl⟩ := mergedRecords_eq_ok.mp h
          rw [if_pos hmergeable]
          exact .merged hnoProxy (List.all_eq_true.mp hmergeable) hp hs
        next hmergeable =>
          rw [if_neg hmergeable]
          unfold fallbackRecords at h
          split at h
          next => cases h
          all_goals
            simp only [Outcome.bind_eq_ok, Outcome.pure_eq_ok] at h
            obtain ⟨p, hp, s, hs, rfl⟩ := h
            exact .fallback hnoProxy hp hs
  · -- a scope that is not the only rule is refused
    have hstrategy : q.strategy = .scope := by simp [strategy, hscopes]
    rw [hstrategy]
    rcases hrules : q.rules with _ | ⟨rule, _ | ⟨next, rest⟩⟩
    · simp [scopes, hrules] at hscopes
    · cases hcondition : rule.condition with
      | mapping tree => simp [scopes, hrules, hcondition] at hscopes
      | fragment body => simp [scopes, hrules, hcondition] at hscopes
      | scope body =>
          have hbody : q.scopeBody = .ok (some body) := by
            simp [scopeBody, scopes, hrules, hcondition]
          unfold records at h
          rw [hbody] at h
          obtain ⟨_, heq, h⟩ := Outcome.bind_eq_ok.mp h
          obtain rfl := Except.ok.inj heq
          split at h
          next => cases h
          next heq =>
            obtain rfl := Option.some.inj heq
            obtain rfl := Except.ok.inj h
            exact .scope hrules hcondition
          next heq => cases heq
    · exact (hscopes (scopes_eq_nil_of_records hrules h)).elim

/-- The filter that is built once more for an explanation is that of the statement; a scope has
none of ours. -/
theorem BuiltBy.statementFilter_eq (h : q.BuiltBy q.strategy built) :
    (q.strategy = .scope ∧ q.statementFilter = .ok none) ∨
      (q.strategy ≠ .scope ∧ ∃ s p, built.statement = .select s ∧ s.filter = some p ∧
        q.statementFilter = .ok (some p)) := by
  unfold statementFilter
  generalize q.strategy = strategy at h ⊢
  cases h with
  | scope => exact Or.inl ⟨rfl, rfl⟩
  | denied => exact Or.inr ⟨by simp, _, _, rfl, rfl, rfl⟩
  | proxied _ h => exact Or.inr ⟨by simp, _, _, rfl, h.filter_eq, by rw [h.predicate_eq]; rfl⟩
  | merged _ _ hp h =>
      exact Or.inr ⟨by simp, _, _, rfl, (joinedStatement_joins h).2.1, by rw [hp]; rfl⟩
  | fallback _ hp h =>
      exact Or.inr ⟨by simp, _, _, rfl, (joinedStatement_joins h).2.1, by rw [hp]; rfl⟩

/-! ## The conditions of the rules -/

/-- What the conditions of some rules, latest first, are combined to by a strategy. -/
inductive CombinedTo (q : Query) : Strategy → List (Rule × Option Expr) → Expr → Prop
  | denied : CombinedTo q .denyByDefault [] (.const false)
  /-- One by one, each guarded by the key of its subject. -/
  | proxied {parts : List (Rule × Option Expr)} {p : Expr}
      (h : parts.foldrM (fun part acc => do
          some <$> liftFilter (Expr.overrideGuarded acc part.1.allow (← q.guard part.1 part.2)))
        none = .ok (some p)) :
      CombinedTo q .proxy parts p
  /-- One by one. -/
  | merged {parts : List (Rule × Option Expr)} {p : Expr}
      (h : parts.foldrM (fun part acc => liftFilter (acc.override part.1.allow part.2))
        (.const false) = .ok p) :
      CombinedTo q .merged parts p
  /-- All of them side by side. -/
  | fallback {parts : List (Rule × Option Expr)} :
      CombinedTo q .fallback parts
        (.disjunction (.const false :: parts.map fun part => part.2.getD (.const true)))

/-- The filter on the subjects of a proxy combines the conditions of the rules. -/
theorem exists_parts_of_subjectPredicate (hproxy : q.isProxy = true) (hne : q.rules ≠ []) {p : Expr}
    (h : q.subjectPredicate = .ok p) : ∃ parts : List (Rule × Option Expr),
      parts.map Prod.fst = q.rules ∧ (∀ part ∈ parts, q.ownExpr part.1 = .ok part.2) ∧
        q.CombinedTo .proxy parts p := by
  have hcombined := combinedGuarded_of_subjectPredicate hne h
  rw [combinedGuarded_eq] at hcombined
  obtain ⟨parts, hrules, hparts, hfold⟩ := Outcome.exists_foldrM (f := q.ownExpr)
    (g := fun part acc => do
      some <$> liftFilter (Expr.overrideGuarded acc part.1.allow (← q.guard part.1 part.2)))
    (fun rule acc r hstep => by
      obtain ⟨e, he, hstep⟩ := Outcome.bind_eq_ok.mp hstep
      obtain ⟨condition, hcondition, hguard⟩ := guardedExpr_eq_ok hproxy he
      exact ⟨condition, hcondition, Outcome.bind_eq_ok.mpr ⟨e, hguard, hstep⟩⟩) hcombined
  exact ⟨parts, hrules, hparts, .proxied hfold⟩

theorem exists_parts_of_predicate (hproxy : q.isProxy = false)
    (hmergeable : ∀ rule ∈ q.rules, rule.condition.isMergeable = true) {p : Expr}
    (h : q.predicate = .ok p) : ∃ parts : List (Rule × Option Expr),
      parts.map Prod.fst = q.rules ∧ (∀ part ∈ parts, q.ownExpr part.1 = .ok part.2) ∧
        q.CombinedTo .merged parts p := by
  have hcombined := combined_of_predicate hmergeable h
  rw [combined_eq] at hcombined
  obtain ⟨parts, hrules, hparts, hfold⟩ := Outcome.exists_foldrM (f := q.ownExpr)
    (g := fun part acc => liftFilter (acc.override part.1.allow part.2))
    (fun rule acc r hstep => by
      rw [ownExpr_of_not_isProxy hproxy]
      exact Outcome.bind_eq_ok.mp hstep) hcombined
  exact ⟨parts, hrules, hparts, .merged hfold⟩

theorem exists_parts_of_unionPredicate (hproxy : q.isProxy = false) {p : Expr}
    (h : q.unionPredicate = .ok p) : ∃ parts : List (Rule × Option Expr),
      parts.map Prod.fst = q.rules ∧ (∀ part ∈ parts, q.ownExpr part.1 = .ok part.2) ∧
        q.CombinedTo .fallback parts p := by
  simp only [unionPredicate, Outcome.bind_eq_ok, Outcome.pure_eq_ok] at h
  obtain ⟨exprs, hexprs, rfl⟩ := h
  suffices hparts : ∃ parts : List (Rule × Option Expr), parts.map Prod.fst = q.rules ∧
      (∀ part ∈ parts, q.ownExpr part.1 = .ok part.2) ∧
        exprs = parts.map fun part => part.2.getD (.const true) by
    obtain ⟨parts, hrules, hparts, rfl⟩ := hparts
    exact ⟨parts, hrules, hparts, .fallback⟩
  rw [Outcome.mapM_eq_ok] at hexprs
  generalize q.rules = rules at hexprs ⊢
  induction hexprs with
  | nil => exact ⟨[], rfl, by simp, rfl⟩
  | cons hhere _ ih =>
      obtain ⟨parts, rfl, hparts, rfl⟩ := ih
      obtain ⟨condition, hcondition, hexpr⟩ := Outcome.bind_eq_ok.mp hhere
      obtain rfl := Outcome.pure_eq_ok.mp hexpr
      rw [← ownExpr_of_not_isProxy hproxy] at hcondition
      exact ⟨(_, condition) :: parts, rfl, List.forall_mem_cons.mpr ⟨hcondition, hparts⟩, rfl⟩

/-- Unless a scope supplies the statement, the conditions of all rules can be built, and they are
combined to the filter of the statement. -/
theorem BuiltBy.exists_parts (h : q.BuiltBy strategy built) (hscope : strategy ≠ .scope) :
    ∃ s p parts, built.statement = .select s ∧ s.filter = some p ∧ parts.map Prod.fst = q.rules ∧
      (∀ part ∈ parts, q.ownExpr part.1 = .ok part.2) ∧ q.CombinedTo strategy parts p := by
  cases h with
  | scope => exact (hscope rfl).elim
  | denied hnil => exact ⟨_, _, [], rfl, rfl, hnil.symm, by simp, .denied⟩
  | proxied hne h =>
      obtain ⟨parts, hrules, hparts, hcombined⟩ :=
        exists_parts_of_subjectPredicate h.isProxy hne h.predicate_eq
      exact ⟨_, _, parts, rfl, h.filter_eq, hrules, hparts, hcombined⟩
  | merged hproxy hmergeable hp h =>
      obtain ⟨parts, hrules, hparts, hcombined⟩ := exists_parts_of_predicate hproxy hmergeable hp
      exact ⟨_, _, parts, rfl, (joinedStatement_joins h).2.1, hrules, hparts, hcombined⟩
  | fallback hproxy hp h =>
      obtain ⟨parts, hrules, hparts, hcombined⟩ := exists_parts_of_unionPredicate hproxy hp
      exact ⟨_, _, parts, rfl, (joinedStatement_joins h).2.1, hrules, hparts, hcombined⟩

end Query

end RowPolicy
