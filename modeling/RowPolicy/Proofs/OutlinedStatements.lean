import RowPolicy.Proofs.OutlinedRules

/-!
# Statements without the content of literals

Two queries whose rules have the same outlines are run side by side. However their statements are
built, the same steps are taken in the same order: both fail alike, or both have statements on the
same entity with the same joins, which drop repeated rows alike, and with filters of the same
outline.
-/

namespace RowPolicy

open Outcome (view view_bind view_bind_same view_map view_mapM view_foldlM)
open Sql (Expr Select Statement)

namespace Sql

/-- A statement with the outline of its filter. Its joins mention no literal of a rule. -/
def Select.outline (s : Select) : Select := { s with filter := s.filter.map Expr.outline }

/-- The outline of a statement. What was given in place of one is kept. -/
def Statement.outline : Statement → Statement
  | select s => select s.outline
  | given v => given v

end Sql

/-- What was built for a query, with the outlines of its statement and filter. -/
def Records.outline (built : Records) : Records :=
  ⟨built.statement.outline, built.predicate.map Expr.outline, built.joins⟩

/-! ## Two lists of rules -/

section Rules

variable {rule rule' : Rule} {rules rules' : List Rule}

theorem Rule.allow_congr (h : rule.outline = rule'.outline) : rule.allow = rule'.allow :=
  (Rule.mk.inj h).1

variable (h : rules.map Rule.outline = rules'.map Rule.outline)
include h

theorem Rule.reverse_congr : rules.reverse.map Rule.outline = rules'.reverse.map Rule.outline := by
  rw [List.map_reverse, h, List.map_reverse]

theorem Rule.isEmpty_congr : rules.isEmpty = rules'.isEmpty := by
  simpa using congrArg List.isEmpty h

theorem JoinList.ofRules_congr : JoinList.ofRules rules = JoinList.ofRules rules' := by
  have htrees : ∀ rules : List Rule, (rules.map Rule.outline).map (·.condition.associations) =
      rules.map (·.condition.associations) := by
    intro rules
    rw [List.map_map]
    exact List.map_congr_left fun rule _ => rule.condition.associations_outline
  unfold ofRules
  rw [← htrees rules, h, htrees]

end Rules

namespace Sql.Expr

theorem getD_outline (condition : Option Expr) : (condition.getD (.const true)).outline =
    (condition.map outline).getD (.const true) := by
  cases condition <;> rfl

theorem override_congr {acc acc' : Expr} {condition condition' : Option Expr} (allow : Bool)
    (hacc : acc.outline = acc'.outline)
    (hcondition : condition.map outline = condition'.map outline) :
    view id outline (acc.override allow condition) =
      view id outline (acc'.override allow condition') := by
  rw [override_outline, override_outline, hacc, hcondition]

theorem overrideGuarded_congr {acc acc' : Option Expr} {e e' : Expr} (allow : Bool)
    (hacc : acc.map outline = acc'.map outline) (he : e.outline = e'.outline) :
    view id outline (overrideGuarded acc allow e) =
      view id outline (overrideGuarded acc' allow e') := by
  rw [overrideGuarded_outline, overrideGuarded_outline, hacc, he]

end Sql.Expr

namespace Query

variable {q : Query} {rule rule' : Rule} {rules rules' : List Rule}

/-- The query with other rules. -/
def withRules (q : Query) (rules : List Rule) : Query := { q with rules := rules }

/-! ## Combining -/

/-- A single allowing rule stands for itself, and other rules for their combination. -/
theorem predicate_eq (q : Query) : q.predicate = match q.rules with
    | [rule] => if rule.allow then q.conditionExpr rule q.entity else q.combined
    | _ => q.combined := by
  have hcombined : (do
      let filter ← (Filter.value ∘ Value.expr) <$> q.combined
      liftFilter (filter.toExpr q.schema q.entity)) = q.combined := by
    cases q.combined <;> rfl
  obtain ⟨schema, entity, action, rules, proxies, config⟩ := q
  match rules with
  | [] | _ :: _ :: _ => exact hcombined
  | [rule] =>
      unfold predicate filter
      dsimp only
      split
      next => rfl
      next => exact hcombined

section Combine

variable (h : rules.map Rule.outline = rules'.map Rule.outline)
include h

theorem combined_congr :
    view QueryError.outline Expr.outline (q.withRules rules).combined =
      view QueryError.outline Expr.outline (q.withRules rules').combined := by
  refine view_foldlM (fun acc acc' rule rule' hacc hrule => ?_) (Rule.reverse_congr h) rfl
  refine view_bind (ruleExpr_congr hrule q.entity) fun _ _ hcondition => view_liftFilter ?_
  rw [Rule.allow_congr hrule]
  exact Sql.Expr.override_congr rule'.allow hacc hcondition

/-- A single allowing rule stands for itself in both runs or in none. -/
theorem view_single {single single' : Rule → Except QueryError Expr}
    {several several' : Except QueryError Expr}
    (hsingle : ∀ rule rule', rule.outline = rule'.outline →
      view QueryError.outline Expr.outline (single rule) =
        view QueryError.outline Expr.outline (single' rule'))
    (hseveral : view QueryError.outline Expr.outline several =
      view QueryError.outline Expr.outline several') :
    view QueryError.outline Expr.outline (match rules with
      | [rule] => if rule.allow then single rule else several
      | _ => several) =
    view QueryError.outline Expr.outline (match rules' with
      | [rule] => if rule.allow then single' rule else several'
      | _ => several') := by
  match rules, rules', h with
  | [], [], _ => exact hseveral
  | [], _ :: _, h | _ :: _, [], h => cases h
  | [_], _ :: _ :: _, h | _ :: _ :: _, [_], h => cases (List.cons.inj h).2
  | [rule], [rule'], h =>
      have hrule := List.singleton_inj.mp h
      dsimp only
      rw [Rule.allow_congr hrule]
      split
      next => exact hsingle rule rule' hrule
      next => exact hseveral
  | _ :: _ :: _, _ :: _ :: _, _ => exact hseveral

theorem predicate_congr :
    view QueryError.outline Expr.outline (q.withRules rules).predicate =
      view QueryError.outline Expr.outline (q.withRules rules').predicate := by
  rw [predicate_eq, predicate_eq]
  exact view_single h (fun _ _ hrule => conditionExpr_congr hrule q.entity) (combined_congr h)

theorem unionPredicate_congr :
    view QueryError.outline Expr.outline (q.withRules rules).unionPredicate =
      view QueryError.outline Expr.outline (q.withRules rules').unionPredicate := by
  have hpart : ∀ rule rule' : Rule, rule.outline = rule'.outline →
      view QueryError.outline Expr.outline (do
        return (← q.ruleExpr rule q.entity).getD (.const true)) =
      view QueryError.outline Expr.outline (do
        return (← q.ruleExpr rule' q.entity).getD (.const true)) := by
    intro rule rule' hrule
    refine view_bind (ruleExpr_congr hrule q.entity) fun condition condition' hcondition => ?_
    refine congrArg Except.ok ?_
    rw [Expr.getD_outline, hcondition, Expr.getD_outline]
  refine view_bind (view_mapM hpart h) fun parts parts' hparts => congrArg Except.ok ?_
  rw [Expr.disjunction_outline, Expr.disjunction_outline, List.map_cons, hparts, List.map_cons]

end Combine

/-! ## Guarding -/

theorem proxySubject_outline (q : Query) (rule : Rule) :
    q.proxySubject rule.outline = q.proxySubject rule :=
  rfl

theorem guardedExpr_congr (hrule : rule.outline = rule'.outline) :
    view QueryError.outline Expr.outline (q.guardedExpr rule) =
      view QueryError.outline Expr.outline (q.guardedExpr rule') := by
  unfold guardedExpr
  rw [← proxySubject_outline, hrule, proxySubject_outline]
  refine view_bind_same _ fun subject => ?_
  refine view_bind (ruleExpr_congr hrule subject) fun condition condition' hcondition => ?_
  refine view_bind_same _ fun key => congrArg Except.ok ?_
  rw [Expr.guarded_outline, Expr.guarded_outline, Expr.getD_outline, hcondition,
    ← Expr.getD_outline]

section Guard

variable (h : rules.map Rule.outline = rules'.map Rule.outline)
include h

theorem combinedGuarded_congr :
    view QueryError.outline (Option.map Expr.outline) (q.withRules rules).combinedGuarded =
      view QueryError.outline (Option.map Expr.outline) (q.withRules rules').combinedGuarded := by
  refine view_foldlM (fun acc acc' rule rule' hacc hrule => ?_) (Rule.reverse_congr h) rfl
  refine view_bind (guardedExpr_congr hrule) fun e e' he => ?_
  rw [Rule.allow_congr hrule]
  exact view_map (view_liftFilter (Expr.overrideGuarded_congr rule'.allow hacc he))
    fun _ _ heq => congrArg some heq

theorem subjectPredicate_congr :
    view QueryError.outline Expr.outline (q.withRules rules).subjectPredicate =
      view QueryError.outline Expr.outline (q.withRules rules').subjectPredicate := by
  have hseveral : view QueryError.outline Expr.outline (do
        return (← (q.withRules rules).combinedGuarded).getD (.const false)) =
      view QueryError.outline Expr.outline (do
        return (← (q.withRules rules').combinedGuarded).getD (.const false)) := by
    refine view_bind (combinedGuarded_congr h) fun acc acc' hacc => congrArg Except.ok ?_
    cases acc <;> cases acc' <;> simp_all
  exact view_single h (fun _ _ hrule => guardedExpr_congr hrule) hseveral

/-- Rules with the same outlines are refused alike. -/
theorem refuse_congr (conflict : Conflict) :
    view QueryError.outline id (q.refuse rules conflict) =
      view QueryError.outline id (q.refuse rules' conflict) := by
  have haction : q.actionFor rules = q.actionFor rules' := by
    unfold actionFor
    split
    next => rfl
    next =>
      match rules, rules', h with
      | [], [], _ => rfl
      | [], _ :: _, h | _ :: _, [], h => cases h
      | ⟨_, actions, _, _⟩ :: _, ⟨_, actions', _, _⟩ :: _, h =>
          obtain rfl : actions = actions' := (Rule.mk.inj (List.cons.inj h).1).2.1
          cases actions <;> rfl
  unfold refuse
  rw [Rule.isEmpty_congr h, haction]
  split
  next => rfl
  next =>
    exact view_bind_same _ fun action =>
      congrArg Except.error (QueryError.outline_unmergeable h action q.entity conflict)

end Guard

/-! ## Building -/

theorem outline_applyJoins {s : Schema} {entity : String} {statement statement' : Select}
    (list : JoinList) (h : statement.outline = statement'.outline) :
    view id Select.outline (s.applyJoins list entity statement) =
      view id Select.outline (s.applyJoins list entity statement') := by
  have hjoin : ∀ {statement statement' : Select} (join : Sql.Join),
      statement.outline = statement'.outline →
        (statement.join join).outline = (statement'.join join).outline :=
    fun join h => congrArg (fun s : Select => s.join join) h
  induction list generalizing entity statement statement' with
  | nil => exact congrArg Except.ok h
  | name name rest ih =>
      exact view_bind_same _ fun join => ih (hjoin join h)
  | path name inner rest ihInner ihRest =>
      refine view_bind_same _ fun join => view_bind_same _ fun target => ?_
      exact view_bind (ihInner (hjoin join h)) fun _ _ hinner => ihRest hinner

section Build

variable (h : rules.map Rule.outline = rules'.map Rule.outline)
include h

theorem joinedStatement_congr {p p' : Expr} (hp : p.outline = p'.outline) :
    view QueryError.outline Select.outline ((q.withRules rules).joinedStatement p) =
      view QueryError.outline Select.outline ((q.withRules rules').joinedStatement p') := by
  have hrows : view QueryError.outline Select.outline (q.rowsWhere p) =
      view QueryError.outline Select.outline (q.rowsWhere p') := by
    refine view_bind_same _ fun statement => congrArg Except.ok ?_
    simp [Select.outline, hp]
  unfold joinedStatement
  rw [show (q.withRules rules).joins = (q.withRules rules').joins from JoinList.ofRules_congr h]
  refine view_bind hrows fun statement statement' hstatement => ?_
  refine view_bind (view_liftLookup (outline_applyJoins _ hstatement)) fun joined joined' heq => ?_
  refine view_bind_same _ fun distinct => congrArg Except.ok ?_
  exact congrArg (fun s : Select => { s with distinct := distinct }) heq

theorem proxyStatement_congr (field : ProxyField) :
    view QueryError.outline Select.outline ((q.withRules rules).proxyStatement field) =
      view QueryError.outline Select.outline ((q.withRules rules').proxyStatement field) := by
  have hsubjects : rules.mapM q.proxySubject = rules'.mapM q.proxySubject := by
    have houtline : ∀ rules : List Rule,
        (rules.map Rule.outline).mapM q.proxySubject = rules.mapM q.proxySubject :=
      fun _ => List.mapM_map
    rw [← houtline, h, houtline]
  let isOther : Rule → Bool := fun rule => !rule.condition.isMergeable
  let isJoined : Rule → Bool := fun rule => !rule.condition.associations.isEmpty
  have hother : ∀ rule, isOther rule.outline = isOther rule :=
    fun rule => congrArg (!·) rule.condition.isMergeable_outline
  have hjoined : ∀ rule, isJoined rule.outline = isJoined rule :=
    fun rule => congrArg (fun tree => !JoinTree.isEmpty tree) rule.condition.associations_outline
  refine view_bind (refuse_congr (map_filter_congr hother h) _) fun _ _ _ => ?_
  refine view_bind (refuse_congr (map_filter_congr hjoined h) _) fun _ _ _ => ?_
  refine view_bind_same _ fun typeColumn => view_bind_same _ fun idColumn => ?_
  refine view_bind_same _ fun base => ?_
  change view _ _ (rules.mapM q.proxySubject >>= _) = view _ _ (rules'.mapM q.proxySubject >>= _)
  rw [hsubjects]
  refine view_bind_same _ fun subjects => view_bind_same _ fun joins => ?_
  refine view_bind (subjectPredicate_congr h) fun p p' hp => congrArg Except.ok ?_
  simp [Select.outline, hp]

/-- What is built with a filter on the joined rows. -/
theorem joinedRecords_congr {x x' : Except QueryError Expr}
    (hx : view QueryError.outline Expr.outline x = view QueryError.outline Expr.outline x') :
    view QueryError.outline Records.outline (do
      let p ← x
      return ⟨.select (← (q.withRules rules).joinedStatement p), some p,
        (q.withRules rules).joins⟩) =
    view QueryError.outline Records.outline (do
      let p ← x'
      return ⟨.select (← (q.withRules rules').joinedStatement p), some p,
        (q.withRules rules').joins⟩) := by
  refine view_bind hx fun p p' hp => ?_
  refine view_bind (joinedStatement_congr h hp) fun s s' hs => congrArg Except.ok ?_
  have hjoins : (q.withRules rules).joins = (q.withRules rules').joins := JoinList.ofRules_congr h
  simp [Records.outline, Statement.outline, hs, hp, hjoins]

theorem fallbackRecords_congr :
    view QueryError.outline Records.outline (q.withRules rules).fallbackRecords =
      view QueryError.outline Records.outline (q.withRules rules').fallbackRecords := by
  have hconfig : ∀ rules, (q.withRules rules).config = q.config := fun _ => rfl
  unfold fallbackRecords
  rw [hconfig, hconfig]
  cases q.config.onFallbackQuery with
  | fail =>
      exact congrArg Except.error
        (QueryError.outline_unmergeable h q.action q.entity .conditions)
  | ignore | warn => exact joinedRecords_congr h (unionPredicate_congr h)

theorem scopes_congr : (q.withRules rules).scopes.map (Prod.map Rule.outline id) =
    (q.withRules rules').scopes.map (Prod.map Rule.outline id) := by
  have hscopes : ∀ rules : List Rule, (q.withRules (rules.map Rule.outline)).scopes =
      (q.withRules rules).scopes.map (Prod.map Rule.outline id) := by
    intro rules
    change (rules.map Rule.outline).filterMap _ = (rules.filterMap _).map _
    rw [List.filterMap_map, List.map_filterMap]
    refine List.filterMap_congr fun rule _ => ?_
    obtain ⟨allow, actions, subjects, condition⟩ := rule
    cases condition <;> rfl
  rw [← hscopes, h, hscopes]

theorem scopeBody_congr : view QueryError.outline id (q.withRules rules).scopeBody =
    view QueryError.outline id (q.withRules rules').scopeBody := by
  have hscopes := scopes_congr (q := q) h
  unfold scopeBody
  generalize (q.withRules rules).scopes = scopes at hscopes ⊢
  generalize (q.withRules rules').scopes = scopes' at hscopes ⊢
  match scopes, scopes', hscopes with
  | [], [], _ => rfl
  | [], _ :: _, hscopes | _ :: _, [], hscopes => cases hscopes
  | (rule, body) :: rest, (rule', body') :: rest', hscopes =>
      obtain ⟨hrule, hbody⟩ := Prod.mk.inj (List.cons.inj hscopes).1
      obtain rfl : body = body' := hbody
      obtain ⟨_, hactions, hsubjects, _⟩ := Rule.mk.inj hrule
      have hrefused : ∀ rules rules' : List Rule,
          rules.map Rule.outline = rules'.map Rule.outline →
          view QueryError.outline (id : Option Value → Option Value) (do
            let action ← rule.actions.head?.elim (.error .noAction) .ok
            let subject ← rule.primarySubject?.elim (.error .noSubject) .ok
            throw (.unmergeable (.str action) subject.name rules .scope)) =
          view QueryError.outline id (do
            let action ← rule'.actions.head?.elim (.error .noAction) .ok
            let subject ← rule'.primarySubject?.elim (.error .noSubject) .ok
            throw (.unmergeable (.str action) subject.name rules' .scope)) := by
        intro rules rules' h
        rw [hactions, Rule.primarySubject?, hsubjects]
        exact view_bind_same _ fun action => view_bind_same _ fun subject =>
          congrArg Except.error (QueryError.outline_unmergeable h _ _ _)
      -- only the number of rules decides whether the scope is refused
      match rules, rules', h with
      | [], [], h => exact hrefused [] [] h
      | [_], [_], _ => rfl
      | first :: second :: rest, first' :: second' :: rest', h =>
          exact hrefused (first :: second :: rest) (first' :: second' :: rest') h
      | [], _ :: _, h | _ :: _, [], h => cases h
      | [_], _ :: _ :: _, h | _ :: _ :: _, [_], h => cases (List.cons.inj h).2

/-- What is built for a query does not depend on the content of literals. -/
theorem records_congr :
    view QueryError.outline Records.outline (q.withRules rules).records =
      view QueryError.outline Records.outline (q.withRules rules').records := by
  have hmergeable : (q.withRules rules).isMergeable = (q.withRules rules').isMergeable :=
    all_congr_map (fun rule => rule.condition.isMergeable_outline) h
  have hproxy : ∀ rules, (q.withRules rules).proxy? = q.proxy? := fun _ => rfl
  -- the body of a scope is a part of a statement, so both runs have the same
  refine view_bind (scopeBody_congr h) fun body body' hbody => ?_
  obtain rfl : body = body' := hbody
  split
  next => rfl
  next => rfl
  next =>
    change view _ _ (if rules.isEmpty then _ else _) = view _ _ (if rules'.isEmpty then _ else _)
    rw [Rule.isEmpty_congr h]
    split
    next => rfl
    next =>
      rw [hproxy, hproxy]
      cases q.proxy? with
      | some field =>
          refine view_bind (proxyStatement_congr h field) fun s s' hs => congrArg Except.ok ?_
          simp [Records.outline, Statement.outline, hs]
      | none =>
          dsimp only
          rw [hmergeable]
          split
          next => exact joinedRecords_congr h (predicate_congr h)
          next => exact fallbackRecords_congr h

end Build

end Query

end RowPolicy
