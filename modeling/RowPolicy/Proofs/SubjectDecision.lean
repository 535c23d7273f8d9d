import RowPolicy.Proofs.Decision
import RowPolicy.Sample.Queries

/-!
# What the filter on the subjects of a proxy decides

On a proxy a rule counts only where its subject was found. The latest rule that counts and
is true decides; where there is none, the earliest rule decides, against what it says.
-/

namespace RowPolicy

open Sql (Expr Assignment Truth)

namespace Query

variable {q : Query} {rule : Rule} {entity : String} {σ : Assignment}

/-- A rule matches where the key of its primary subject is there and its condition,
resolved on that subject, is true. -/
def SubjectMatches (q : Query) (σ : Assignment) (rule : Rule) : Prop :=
  ∃ subject key, q.proxySubject rule = .ok subject ∧
    q.schema.primaryKey subject = .ok key ∧ σ key ≠ .null ∧ q.ruleTruth σ subject rule = .yes

/-- The truth value of a guarded condition; one that cannot be built is not true. -/
def guardedTruth (q : Query) (σ : Assignment) (rule : Rule) : Truth :=
  match q.guardedExpr rule with
  | .ok e => e.eval σ
  | .error _ => .no

theorem guardedExpr_cases {e : Expr} (h : q.guardedExpr rule = .ok e) :
    ∃ subject key condition, q.proxySubject rule = .ok subject ∧
      q.schema.primaryKey subject = .ok key ∧ q.ruleExpr rule subject = .ok condition ∧
      e = .guarded key (condition.getD (.const true)) := by
  unfold guardedExpr at h
  simp only [Outcome.bind_eq_ok, Outcome.pure_eq_ok, liftLookup_eq_ok] at h
  obtain ⟨subject, hsubject, condition, hcondition, key, hkey, rfl⟩ := h
  exact ⟨subject, key, condition, hsubject, hkey, hcondition, rfl⟩

theorem guardedExpr_isCondition (hrule : rule.condition.isMergeable = true) {e : Expr}
    (h : q.guardedExpr rule = .ok e) : e.IsCondition := by
  obtain ⟨subject, key, condition, _, _, hexpr, rfl⟩ := guardedExpr_cases h
  refine Sql.Expr.kept_isCondition.guarded trivial ?_
  cases condition with
  | none => trivial
  | some e => exact ruleExpr_isCondition hrule hexpr e rfl

/-- A guarded condition is true exactly where its rule matches. -/
theorem eval_guardedExpr (hrule : rule.condition.isMergeable = true) {e : Expr}
    (h : q.guardedExpr rule = .ok e) : e.eval σ = .yes ↔ q.SubjectMatches σ rule := by
  obtain ⟨subject, key, condition, hsubject, hkey, hexpr, rfl⟩ := guardedExpr_cases h
  have hcondition : (condition.getD (.const true)).IsCondition := by
    cases condition with
    | none => trivial
    | some e => exact ruleExpr_isCondition hrule hexpr e rfl
  have hvalue : (condition.getD (.const true)).eval σ = q.ruleTruth σ subject rule := by
    rw [ruleTruth_of_ruleExpr hexpr]
    cases condition <;> rfl
  rw [Sql.Expr.eval_guarded hcondition, hvalue, Truth.and_eq_yes, Truth.ofBool_eq_yes,
    bne_iff_ne]
  constructor
  · rintro ⟨hnull, htrue⟩
    exact ⟨subject, key, hsubject, hkey, hnull, htrue⟩
  · rintro ⟨subject', key', hsubject', hkey', hnull, htrue⟩
    obtain rfl := Except.ok.inj (hsubject.symm.trans hsubject')
    obtain rfl := Except.ok.inj (hkey.symm.trans hkey')
    exact ⟨hnull, htrue⟩

/-- A guarded condition can be built and is true exactly where its rule matches. -/
theorem guardedTruth_eq_yes (hrule : rule.condition.isMergeable = true) :
    q.guardedTruth σ rule = .yes ↔ q.SubjectMatches σ rule := by
  cases hguarded : q.guardedExpr rule with
  | ok e =>
      rw [guardedTruth, hguarded]
      exact eval_guardedExpr hrule hguarded
  | error err =>
      rw [guardedTruth, hguarded]
      refine iff_of_false (by simp) ?_
      rintro ⟨subject, key, hsubject, hkey, _, htrue⟩
      unfold ruleTruth at htrue
      unfold guardedExpr at hguarded
      cases hexpr : q.ruleExpr rule subject with
      | ok condition =>
          simp [hsubject, hkey, hexpr, bind, Except.bind, pure, Except.pure, liftLookup,
            liftFilter, liftSchema] at hguarded
      | error err' => simp [hexpr] at htrue

theorem combinedGuarded_eq : q.combinedGuarded = q.rules.foldrM
    (fun rule acc => do
      some <$> liftFilter (Sql.Expr.overrideGuarded acc rule.allow (← q.guardedExpr rule)))
    none :=
  List.foldlM_reverse

/-- The filter on the subjects of a proxy is the combination of the guarded conditions, also if
there is a single allowing rule. -/
theorem combinedGuarded_of_subjectPredicate (hne : q.rules ≠ []) {p : Expr}
    (h : q.subjectPredicate = .ok p) : q.combinedGuarded = .ok (some p) := by
  have hcombined : (do return (← q.combinedGuarded).getD (.const false)) = .ok p →
      q.combinedGuarded = .ok (some p) := by
    intro h
    simp only [Outcome.bind_eq_ok, Outcome.pure_eq_ok] at h
    obtain ⟨acc, hacc, rfl⟩ := h
    obtain ⟨rule, rest, hlist⟩ := List.exists_cons_of_ne_nil hne
    rw [combinedGuarded_eq, hlist, List.foldrM_cons] at hacc ⊢
    obtain ⟨before, hbefore, hstep⟩ := Outcome.bind_eq_ok.mp hacc
    obtain ⟨e, he, hstep⟩ := Outcome.bind_eq_ok.mp hstep
    obtain ⟨combined, _, rfl⟩ := Outcome.map_eq_ok.mp hstep
    exact hacc
  unfold subjectPredicate at h
  dsimp only at h
  split at h
  next rule hlist =>
    split at h
    next hallow =>
      rw [combinedGuarded_eq, hlist, List.foldrM_cons, List.foldrM_nil]
      simp only [pure, Except.pure, bind, Except.bind, h, hallow]
      rfl
    next => exact hcombined h
  next => exact hcombined h

/-- What the truth value of a fold over guarded conditions starts from: the earliest rule
stands for itself if it allows and for its opposite if it denies. -/
def guardedStart (rules : List Rule) : Truth :=
  .ofBool (rules.getLast?.any fun earliest => !earliest.allow)

/-- Guarded conditions combined have the truth value of the plain fold. -/
theorem eval_combinedGuarded (hne : q.rules ≠ [])
    (hrules : ∀ rule ∈ q.rules, rule.condition.isMergeable = true) {p : Option Expr}
    (h : q.combinedGuarded = .ok p) :
    ∃ e, p = some e ∧ e.eval σ =
      Truth.overrideAll (guardedStart q.rules) (q.guardedTruth σ) q.rules := by
  rw [combinedGuarded_eq] at h
  suffices hfold : ∃ e, p = some e ∧ e.IsCondition ∧ e.eval σ =
      Truth.overrideAll (guardedStart q.rules) (q.guardedTruth σ) q.rules by
    obtain ⟨e, he, _, hvalue⟩ := hfold
    exact ⟨e, he, hvalue⟩
  generalize q.rules = rules at h hrules hne ⊢
  induction rules generalizing p with
  | nil => exact (hne rfl).elim
  | cons rule rest ih =>
      rw [List.foldrM_cons, Outcome.bind_eq_ok] at h
      obtain ⟨acc, hacc, h⟩ := h
      simp only [Outcome.bind_eq_ok, Outcome.map_eq_ok, liftFilter_eq_ok] at h
      obtain ⟨guarded, hguarded, e, he, rfl⟩ := h
      simp only [List.mem_cons, forall_eq_or_imp] at hrules
      have hcondition := guardedExpr_isCondition hrules.1 hguarded
      have htruth : q.guardedTruth σ rule = guarded.eval σ := by rw [guardedTruth, hguarded]
      -- the earliest rule has nothing before it, so it settles what the fold starts from
      cases rest with
      | nil =>
          obtain rfl := Outcome.pure_eq_ok.mp hacc
          refine ⟨e, rfl, Sql.Expr.kept_isCondition.overrideGuarded (by simp) hcondition he, ?_⟩
          rw [Sql.Expr.eval_overrideGuarded (by simp) hcondition he, Truth.overrideAll_cons,
            Truth.overrideAll_nil, htruth]
          rfl
      | cons next further =>
          obtain ⟨before, rfl, hbefore, hvalue⟩ := ih hacc hrules.2 (by simp)
          have hsome : ∀ e ∈ some before, e.IsCondition := by simpa using hbefore
          refine ⟨e, rfl, Sql.Expr.kept_isCondition.overrideGuarded hsome hcondition he, ?_⟩
          rw [Sql.Expr.eval_overrideGuarded hsome hcondition he, Truth.overrideAll_cons, htruth,
            Option.elim, hvalue]
          rfl

/-- The filter on the subjects of a proxy has the truth value of the plain fold. -/
theorem eval_subjectPredicate (hne : q.rules ≠ [])
    (hrules : ∀ rule ∈ q.rules, rule.condition.isMergeable = true) {p : Expr}
    (h : q.subjectPredicate = .ok p) :
    p.eval σ = Truth.overrideAll (guardedStart q.rules) (q.guardedTruth σ) q.rules := by
  obtain ⟨e, heq, hvalue⟩ :=
    eval_combinedGuarded (σ := σ) hne hrules (combinedGuarded_of_subjectPredicate hne h)
  obtain rfl := Option.some.inj heq
  exact hvalue

/-- The filter on the subjects of a proxy is true where the latest matching rule allows,
and where no rule matches and the earliest one denies. So where no subject of a rule was
found it is not true if the earliest rule allows. -/
theorem subjectPredicate_decides (hne : q.rules ≠ [])
    (hrules : ∀ rule ∈ q.rules, rule.condition.isMergeable = true) {p : Expr}
    (h : q.subjectPredicate = .ok p) (σ : Assignment) :
    (p.eval σ = .yes ↔
      LatestAllows (q.SubjectMatches σ) q.rules ∨
        ((∀ rule ∈ q.rules, ¬ q.SubjectMatches σ rule) ∧
          ∃ earliest, q.rules.getLast? = some earliest ∧ earliest.allow = false)) ∧
    ((∀ rule ∈ q.rules, ∀ subject key, q.proxySubject rule = .ok subject →
        q.schema.primaryKey subject = .ok key → σ key = .null) →
      (∀ earliest, q.rules.getLast? = some earliest → earliest.allow = true) →
        p.eval σ ≠ .yes) := by
  have hmatches : ∀ rule ∈ q.rules, q.guardedTruth σ rule = .yes ↔ q.SubjectMatches σ rule :=
    fun rule hrule => guardedTruth_eq_yes (hrules rule hrule)
  have hstart : guardedStart q.rules = .yes ↔
      ∃ earliest, q.rules.getLast? = some earliest ∧ earliest.allow = false := by
    rw [guardedStart, Truth.ofBool_eq_yes]
    cases q.rules.getLast? <;> simp
  have hdecides : p.eval σ = .yes ↔
      LatestAllows (q.SubjectMatches σ) q.rules ∨
        ((∀ rule ∈ q.rules, ¬ q.SubjectMatches σ rule) ∧
          ∃ earliest, q.rules.getLast? = some earliest ∧ earliest.allow = false) := by
    rw [eval_subjectPredicate hne hrules h, Truth.overrideAll_eq_yes,
      LatestAllows.congr hmatches, hstart]
    exact or_congr_right (and_congr_left fun _ =>
      forall₂_congr fun rule hrule => not_congr (hmatches rule hrule))
  refine ⟨hdecides, fun hnull hearliest htrue => ?_⟩
  rcases hdecides.mp htrue with hlatest | ⟨_, earliest, hlast, hdeny⟩
  · obtain ⟨rule, hrule, ⟨subject, key, hsubject, hkey, hfound, _⟩, _⟩ := hlatest.exists_rule
    exact hfound (hnull rule hrule subject key hsubject hkey)
  · rw [hearliest earliest hlast] at hdeny
    cases hdeny

/-- On activities, posts that are published are readable, and later comments that are not
approved are taken back. -/
def activityReading : Query := Sample.reading "Activity"
  [Sample.readRule false "Comment" (.literal "approved" (.bool false) .nil),
    Sample.readRule true "Post" (.literal "is_published" (.bool true) .nil)]

def publishedPost : Assignment := fun c =>
  if c.table = "posts" then if c.name = "is_published" then .bool true else .int 1 else .null

theorem activityReading_of_publishedPost : ∃ p, activityReading.subjectPredicate = .ok p ∧
    p.eval publishedPost = .yes ∧ p.eval (fun _ => .null) ≠ .yes := by
  have hne : activityReading.rules ≠ [] := by decide
  have hrules : ∀ rule ∈ activityReading.rules, rule.condition.isMergeable = true := by
    simp [activityReading, Sample.reading, Sample.readRule, Condition.isMergeable, Condition.kind]
  have h : activityReading.subjectPredicate = .ok _ := rfl
  refine ⟨_, h, (subjectPredicate_decides hne hrules h publishedPost).1.mpr (Or.inl ?_),
    (subjectPredicate_decides hne hrules h _).2 (fun _ _ _ _ _ _ => rfl) ?_⟩
  · refine ⟨[_], _, [], rfl, ?_, ⟨"Post", ⟨"posts", "id", .integer⟩, rfl, rfl, ?_, rfl⟩, rfl⟩
    · simp only [List.mem_singleton, forall_eq]
      rintro ⟨subject, key, hsubject, hkey, hfound, _⟩
      obtain rfl := Except.ok.inj hsubject
      obtain rfl := Except.ok.inj hkey
      exact hfound rfl
    · decide
  · intro earliest hlast
    obtain rfl := Option.some.inj hlast
    rfl

end Query

end RowPolicy
