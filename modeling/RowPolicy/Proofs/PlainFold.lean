import RowPolicy.Proofs.Decision
import RowPolicy.Sample.Queries

/-!
# The filter of a query and the plain fold

The filter of a query is simplified while it is built: constants are settled in quantified tests,
in mappings and between rules, and a single allowing rule stands for itself. Folding truth values
from the earliest rule on does nothing of the kind. In whatever way comparisons are read, with
missing values or not, both come to the same truth value of the three.
-/

namespace RowPolicy

open Sql (Assignment Column Expr Truth Valuation)

/-! ## Truth values without simplification -/

/-- The truth value of a test in a reading: the truth values for the elements of the operand
combined, if the test has a quantifier. -/
def Test.truth (t : Test) (V : Valuation) (c : Column) (operand : Value) :
    Except FilterError Truth :=
  match t.quantifier with
  | .plain => V.truth <$> t.operator.expr c operand
  | .any => Truth.combine false <$> elements
  | .all => Truth.combine true <$> elements
where
  /-- The truth values for the elements of the operand. -/
  elements : Except FilterError (List Truth) := do
    (← operand.operands).mapM fun item => V.truth <$> t.operator.expr c item

/-- The truth value of the condition that a column has a value. -/
def Value.leafTruth (V : Valuation) (c : Column) : Value → Except FilterError Truth
  | .comparison test operand => test.truth V c operand
  | v => V.truth <$> v.leaf c

namespace Schema

def entryTruth (s : Schema) (V : Valuation) (entity : String) (entry : String × Value) :
    Except FilterError Truth := do
  entry.2.leafTruth V (← liftSchema (s.column entity entry.1))

/-- The truth value of a mapping: that of all its entries combined. -/
def mappingTruth (s : Schema) (V : Valuation) (entity : String) (entries : List (String × Value)) :
    Except FilterError Truth :=
  Truth.combine true <$> entries.mapM (s.entryTruth V entity)

end Schema

namespace Query

/-- The truth value of a rule's condition. One that is blank, or has no literal entries, is
true. -/
def conditionTruth (q : Query) (V : Valuation) (rule : Rule) : Except QueryError Truth :=
  if rule.condition.isBlank then .ok .yes
  else do
    match ← q.ruleFilter rule q.entity with
    | .mapping entries => liftFilter (q.schema.mappingTruth V q.entity entries.entries)
    | .value v => V.truth <$> liftFilter (Filter.toExpr q.schema q.entity (.value v))

/-- The rules of a query folded from the earliest one on, starting from what is false: an
allowing rule adds its condition to what was true so far, and a denying one leaves of that only
where its condition is not true. -/
def plainFold (q : Query) (V : Valuation) : Except QueryError Truth :=
  q.rules.reverse.foldlM
    (fun acc rule => do return Truth.override rule.allow (← q.conditionTruth V rule) acc) .no

end Query

/-! ## Conditions -/

section Conditions

variable {V : Valuation} {c : Column} {e : Expr}

namespace Test

variable {t : Test} {operand : Value}

theorem elements_of_mapM {items : List Value} {parts : List Expr}
    (hitems : operand.operands = .ok items)
    (hparts : items.mapM (t.operator.expr c) = .ok parts) :
    truth.elements t V c operand = .ok (parts.map V.truth) := by
  rw [truth.elements, hitems]
  apply Outcome.mapM_of_mapM hparts
  intro item part hpart
  rw [hpart]
  rfl

theorem isCondition_of_mapM {items : List Value} {parts : List Expr}
    (hparts : items.mapM (t.operator.expr c) = .ok parts) : ∀ e ∈ parts, e.IsCondition := by
  intro part hpart
  obtain ⟨item, _, hitem⟩ := Outcome.exists_of_mem_mapM hparts hpart
  exact (Operator.expr_keepsTo hitem).isCondition

/-- A test has its plain truth value, also over no element at all. -/
theorem truth_of_expr (h : t.expr c operand = .ok e) : t.truth V c operand = .ok (V.truth e) := by
  unfold expr at h
  unfold truth
  cases hquantifier : t.quantifier with
  | plain =>
      simp only [hquantifier] at h ⊢
      rw [h]
      rfl
  | any =>
      simp only [hquantifier, Outcome.bind_eq_ok, Outcome.pure_eq_ok] at h ⊢
      obtain ⟨items, hitems, parts, hparts, rfl⟩ := h
      rw [elements_of_mapM hitems hparts, Expr.disjunction,
        Sql.Expr.truth_combine_unit V.truth_or (isCondition_of_mapM hparts)]
      rfl
  | all =>
      simp only [hquantifier, Outcome.bind_eq_ok, Outcome.pure_eq_ok] at h ⊢
      obtain ⟨items, hitems, parts, hparts, rfl⟩ := h
      rw [elements_of_mapM hitems hparts, Expr.conjunction,
        Sql.Expr.truth_combine_unit V.truth_and (isCondition_of_mapM hparts)]
      rfl

end Test

theorem Value.leafTruth_of_leaf {v : Value} (h : v.leaf c = .ok e) :
    v.leafTruth V c = .ok (V.truth e) := by
  cases v with
  | comparison test operand => exact Test.truth_of_expr h
  | _ =>
      rw [leafTruth, h]
      · rfl
      · simp

namespace Schema

variable {s : Schema} {entity : String}

theorem entryTruth_of_entryExpr {entry : String × Value} (h : s.entryExpr entity entry = .ok e) :
    s.entryTruth V entity entry = .ok (V.truth e) := by
  obtain ⟨column, hcolumn, hleaf⟩ := entryExpr_eq_ok.mp h
  rw [entryTruth, hcolumn]
  exact Value.leafTruth_of_leaf hleaf

theorem mappingTruth_of_mappingExpr {entries : List (String × Value)}
    (h : s.mappingExpr entity entries = .ok e) :
    s.mappingTruth V entity entries = .ok (V.truth e) := by
  rcases mappingExpr_cases h with ⟨rfl, rfl⟩ | ⟨parts, hparts, hne, rfl⟩
  · rw [V.truth_const]
    rfl
  · have hconditions : ∀ part ∈ parts, part.IsCondition := by
      intro part hpart
      obtain ⟨entry, _, hentry⟩ := Outcome.exists_of_mem_mapM hparts hpart
      obtain ⟨column, _, hleaf⟩ := entryExpr_eq_ok.mp hentry
      exact (Value.leaf_keepsTo hleaf).isCondition
    have htruths : entries.mapM (s.entryTruth V entity) = .ok (parts.map V.truth) :=
      Outcome.mapM_of_mapM hparts fun _ _ => entryTruth_of_entryExpr
    rw [mappingTruth, htruths, Sql.Expr.truth_conjunction hne hconditions]
    rfl

end Schema

end Conditions

/-! ## Rules -/

namespace Query

variable {q : Query} {rule : Rule} {V : Valuation}

theorem conditionTruth_of_ruleExpr {condition : Option Expr}
    (h : q.ruleExpr rule q.entity = .ok condition) :
    q.conditionTruth V rule = .ok (q.truthIn V q.entity rule) := by
  rw [truthIn_of_ruleExpr h]
  unfold ruleExpr at h
  unfold conditionTruth
  by_cases hblank : rule.condition.isBlank = true
  · rw [if_pos hblank] at h
    obtain rfl := Except.ok.inj h
    rw [if_pos hblank]
    rfl
  · rw [if_neg hblank] at h
    simp only [Outcome.bind_eq_ok, Outcome.pure_eq_ok, liftFilter_eq_ok] at h
    obtain ⟨filter, hfilter, e, he, rfl⟩ := h
    rw [if_neg hblank, Outcome.bind_eq_ok]
    refine ⟨filter, hfilter, ?_⟩
    cases filter with
    | mapping entries => exact liftFilter_eq_ok.mpr (Schema.mappingTruth_of_mappingExpr he)
    | value v =>
        dsimp only
        rw [he]
        rfl

/-- Rules whose conditions have truth values are folded into one. -/
theorem plainFold_eq
    (h : ∀ rule ∈ q.rules, q.conditionTruth V rule = .ok (q.truthIn V q.entity rule)) :
    q.plainFold V = .ok (Truth.overrideAll .no (q.truthIn V q.entity) q.rules) := by
  rw [plainFold, List.foldlM_reverse]
  generalize q.rules = rules at h
  induction rules with
  | nil => rfl
  | cons rule rest ih =>
      obtain ⟨hrule, hrest⟩ := List.forall_mem_cons.mp h
      rw [List.foldrM_cons, ih hrest]
      change (q.conditionTruth V rule).bind _ = _
      rw [hrule]
      rfl

/-- Where the filter of mappings can be built, so can the plain fold, and the filter has its truth
value: true, false or unknown, in every reading of comparisons, and so under every assignment of
cells, missing values included. -/
theorem plainFold_of_predicate (hrules : ∀ rule ∈ q.rules, rule.condition.isMergeable = true)
    {p : Expr} (h : q.predicate = .ok p) :
    (∀ V : Valuation, q.plainFold V = .ok (V.truth p)) ∧
      ∀ σ : Assignment, q.plainFold (.ofAssignment σ) = .ok (p.eval σ) := by
  have hfold : ∀ V : Valuation, q.plainFold V = .ok (V.truth p) := by
    intro V
    rw [truth_predicate hrules h]
    apply plainFold_eq
    intro rule hrule
    obtain ⟨condition, hexpr⟩ := exists_ruleExpr h rule hrule
    exact conditionTruth_of_ruleExpr hexpr
  exact ⟨hfold, fun σ => hfold (.ofAssignment σ)⟩

/-- All posts are readable, then none that has an author, and then those with a title; a test over
nothing is denied. -/
def overlaidReading : Query := Sample.reading "Post"
  [Sample.readRule false "Post"
      (.literal "title" (.comparison ⟨.eq, .any⟩ (.collection .list [])) .nil),
    Sample.readRule true "Post" (.literal "title" (.str "Intro") .nil),
    Sample.readRule false "Post" (.association "author" .nil .nil),
    Sample.readRule true "Post" .nil]

theorem overlaidReading_plainFold : ∃ p, overlaidReading.predicate = .ok p ∧
    p.eval (fun _ => .null) = .unknown ∧
    overlaidReading.plainFold (.ofAssignment fun _ => .null) = .ok .unknown ∧
    overlaidReading.plainFold (.ofAssignment fun _ => .str "Intro") = .ok .yes := by
  have hrules : ∀ rule ∈ overlaidReading.rules, rule.condition.isMergeable = true := by decide
  have h : overlaidReading.predicate = .ok _ := rfl
  obtain ⟨_, hfold⟩ := plainFold_of_predicate hrules h
  exact ⟨_, h, rfl, hfold _, hfold _⟩

end Query

end RowPolicy
