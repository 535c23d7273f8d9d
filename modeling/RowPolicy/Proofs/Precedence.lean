import RowPolicy.Proofs.Combination
import RowPolicy.Rule

/-!
# The latest rule has the last word

Rules are listed latest first. Taking them one by one, each may add to the filter or take
from it; what remains in the end is decided by the latest rule that matches. Folding over
truth values says this without any simplification, and each step on expressions has the
truth value of the corresponding step on truth values.
-/

namespace RowPolicy

/-- The latest of the rules, listed latest first, for which `p` holds is an allowing one. -/
def LatestAllows (p : Rule → Prop) (rules : List Rule) : Prop :=
  ∃ later rule earlier, rules = later ++ rule :: earlier ∧ (∀ r ∈ later, ¬ p r) ∧ p rule ∧
    rule.allow = true

namespace LatestAllows

variable {p q : Rule → Prop} {rule : Rule} {rules : List Rule}

theorem not_nil : ¬ LatestAllows p [] := by
  rintro ⟨later, rule, earlier, heq, _⟩
  simp at heq

theorem cons_iff : LatestAllows p (rule :: rules) ↔
    (p rule ∧ rule.allow = true) ∨ (¬ p rule ∧ LatestAllows p rules) := by
  constructor
  · rintro ⟨later, found, earlier, heq, hlater, hfound, hallow⟩
    cases later with
    | nil =>
        obtain ⟨rfl, rfl⟩ := List.cons.inj heq
        exact Or.inl ⟨hfound, hallow⟩
    | cons first later =>
        obtain ⟨rfl, rfl⟩ := List.cons.inj heq
        exact Or.inr ⟨hlater _ List.mem_cons_self, later, found, earlier, rfl,
          fun r hr => hlater r (List.mem_cons_of_mem _ hr), hfound, hallow⟩
  · rintro (⟨hrule, hallow⟩ | ⟨hrule, later, found, earlier, rfl, hlater, hfound, hallow⟩)
    · exact ⟨[], rule, rules, rfl, by simp, hrule, hallow⟩
    · refine ⟨rule :: later, found, earlier, rfl, ?_, hfound, hallow⟩
      intro r hr
      rcases List.mem_cons.mp hr with rfl | hr
      · exact hrule
      · exact hlater r hr

/-- Some rule for which `p` holds allows. -/
theorem exists_rule (h : LatestAllows p rules) : ∃ rule ∈ rules, p rule ∧ rule.allow = true := by
  obtain ⟨later, rule, earlier, rfl, _, hrule, hallow⟩ := h
  exact ⟨rule, by simp, hrule, hallow⟩

/-- If more rules hold, but no denying one among them, the latest one still allows. -/
theorem mono (h : LatestAllows p rules) (hmore : ∀ rule ∈ rules, p rule → q rule)
    (hdeny : ∀ rule ∈ rules, rule.allow = false → q rule → p rule) : LatestAllows q rules := by
  induction rules with
  | nil => exact (not_nil h).elim
  | cons rule rest ih =>
      simp only [List.mem_cons, forall_eq_or_imp] at hmore hdeny
      rw [cons_iff] at h ⊢
      rcases h with ⟨hrule, hallow⟩ | ⟨hrule, hrest⟩
      · exact Or.inl ⟨hmore.1 hrule, hallow⟩
      · have hlater := ih hrest hmore.2 hdeny.2
        by_cases hq : q rule
        · cases hallow : rule.allow with
          | false => exact (hrule (hdeny.1 hallow hq)).elim
          | true => exact Or.inl ⟨hq, rfl⟩
        · exact Or.inr ⟨hq, hlater⟩

/-- Going through the rules from the latest one on decides whether one allows. -/
instance decidable (p : Rule → Prop) [DecidablePred p] :
    ∀ rules : List Rule, Decidable (LatestAllows p rules)
  | [] => isFalse not_nil
  | _ :: rules => have := decidable p rules; decidable_of_iff' _ cons_iff

theorem congr (h : ∀ rule ∈ rules, p rule ↔ q rule) :
    LatestAllows p rules ↔ LatestAllows q rules :=
  ⟨fun hp => hp.mono (fun rule hrule => (h rule hrule).mp)
      fun rule hrule _ => (h rule hrule).mpr,
    fun hq => hq.mono (fun rule hrule => (h rule hrule).mpr)
      fun rule hrule _ => (h rule hrule).mp⟩

end LatestAllows

namespace Sql.Truth

/-- The truth value of a filter after one more rule with a condition of truth value `t`:
an allowing rule adds to it, a denying one takes from it. -/
def override (allow : Bool) (t acc : Truth) : Truth :=
  if allow then t.or acc else t.isNotTrue.and acc

/-- The truth value of a filter after some rules, listed latest first. -/
def overrideAll (start : Truth) (truth : Rule → Truth) (rules : List Rule) : Truth :=
  rules.foldr (fun rule acc => override rule.allow (truth rule) acc) start

variable {truth : Rule → Truth} {start : Truth}

@[simp] theorem overrideAll_nil : overrideAll start truth [] = start := rfl

@[simp] theorem overrideAll_cons (rule : Rule) (rules : List Rule) :
    overrideAll start truth (rule :: rules) =
      override rule.allow (truth rule) (overrideAll start truth rules) := rfl

/-- Rules leave a filter true if the latest true one allows, or if none is true and the
filter was true before. -/
theorem overrideAll_eq_yes {rules : List Rule} : overrideAll start truth rules = yes ↔
    LatestAllows (fun rule => truth rule = yes) rules ∨
      ((∀ rule ∈ rules, truth rule ≠ yes) ∧ start = yes) := by
  induction rules with
  | nil => simp [LatestAllows.not_nil]
  | cons rule rest ih =>
      rw [overrideAll_cons, LatestAllows.cons_iff]
      cases hallow : rule.allow with
      | true =>
          simp only [override, if_true, or_eq_yes, ih, List.mem_cons, forall_eq_or_imp]
          by_cases ht : truth rule = yes <;> simp [ht]
      | false =>
          simp only [override, Bool.false_eq_true, if_false, and_eq_yes, isNotTrue_eq_yes, ih,
            List.mem_cons, forall_eq_or_imp]
          by_cases ht : truth rule = yes <;> simp [ht]

end Sql.Truth

namespace Sql.Expr

variable {P : Expr → Prop} {acc e acc' : Expr} {allow : Bool} {condition : Option Expr}
  {V : Valuation} {σ : Assignment}

/-- What the filter can be after one more rule. -/
theorem override_cases (h : acc.override allow condition = .ok acc') :
    (condition = none ∧ acc' = .const allow) ∨ ∃ e, condition = some e ∧
      ((acc = .const true ∧ allow = true ∧ acc' = .const true) ∨
        (acc = .const true ∧ allow = false ∧ e.negated = .ok acc') ∨
        (acc = .const false ∧ allow = true ∧ acc' = e) ∨
        (acc = .const false ∧ allow = false ∧ acc' = .const false) ∨
        (allow = true ∧ acc' = disjunction [e, acc]) ∨
        (allow = false ∧ ∃ opposite, e.negated = .ok opposite ∧
          acc' = conjunction [opposite, acc])) := by
  unfold override at h
  cases condition with
  | none => exact Or.inl ⟨rfl, (Except.ok.inj h).symm⟩
  | some e =>
      refine Or.inr ⟨e, rfl, ?_⟩
      dsimp only at h
      split at h
      · cases allow with
        | true => exact Or.inl ⟨rfl, rfl, (Except.ok.inj h).symm⟩
        | false => exact Or.inr (Or.inl ⟨rfl, rfl, h⟩)
      · cases allow with
        | true => exact Or.inr (Or.inr (Or.inl ⟨rfl, rfl, (Except.ok.inj h).symm⟩))
        | false => exact Or.inr (Or.inr (Or.inr (Or.inl ⟨rfl, rfl, (Except.ok.inj h).symm⟩)))
      · refine Or.inr (Or.inr (Or.inr (Or.inr ?_)))
        cases allow with
        | true => exact Or.inl ⟨rfl, (Except.ok.inj h).symm⟩
        | false =>
            refine Or.inr ⟨rfl, ?_⟩
            cases hopposite : e.negated with
            | error err => simp [hopposite, bind, Except.bind] at h
            | ok opposite =>
                simp only [hopposite, bind, Except.bind, pure, Except.pure,
                  Bool.false_eq_true, if_false, Except.ok.injEq] at h
                exact ⟨opposite, rfl, h.symm⟩

/-- One more rule with a condition can be combined with any filter. -/
theorem exists_override (acc : Expr) (allow : Bool) (h : ∀ e ∈ condition, e.IsCondition) :
    ∃ acc', acc.override allow condition = .ok acc' := by
  cases condition with
  | none => exact ⟨_, rfl⟩
  | some e =>
      obtain ⟨opposite, hopposite⟩ := (h e rfl).exists_negated
      unfold override
      dsimp only
      split
      · cases allow with
        | true => exact ⟨_, rfl⟩
        | false => exact ⟨opposite, hopposite⟩
      · exact ⟨_, rfl⟩
      · cases allow with
        | true => exact ⟨_, rfl⟩
        | false => exact ⟨_, by rw [hopposite]; rfl⟩

/-- One more rule keeps every property of conditions that combining them keeps. -/
theorem Kept.override (hP : Kept P) (hacc : P acc) (hcondition : ∀ e ∈ condition, P e)
    (h : acc.override allow condition = .ok acc') : P acc' := by
  rcases override_cases h with ⟨_, rfl⟩ | ⟨e, rfl, hcases⟩
  · exact hP.const _
  have he : P e := hcondition e rfl
  rcases hcases with ⟨_, _, rfl⟩ | ⟨_, _, hopposite⟩ | ⟨_, _, rfl⟩ | ⟨_, _, rfl⟩ | ⟨_, rfl⟩ |
    ⟨_, opposite, hopposite, rfl⟩
  · exact hP.const _
  · exact hP.negated he hopposite
  · exact he
  · exact hP.const _
  · exact hP.disjunction (by simp) (by simpa using ⟨he, hacc⟩)
  · exact hP.conjunction (by simp) (by simpa using ⟨hP.negated he hopposite, hacc⟩)

/-- A step on filters has the truth value of the step on truth values; a rule without
condition counts as true. -/
theorem truth_override (hacc : acc.IsCondition) (hcondition : ∀ e ∈ condition, e.IsCondition)
    (h : acc.override allow condition = .ok acc') :
    V.truth acc' = Truth.override allow (condition.elim .yes V.truth) (V.truth acc) := by
  rcases override_cases h with ⟨rfl, rfl⟩ | ⟨e, rfl, hcases⟩
  · rw [V.truth_const]
    cases allow <;> simp only [Option.elim, Truth.override] <;> cases V.truth acc <;> rfl
  have he : e.IsCondition := hcondition e rfl
  simp only [Option.elim]
  rcases hcases with ⟨rfl, rfl, rfl⟩ | ⟨rfl, rfl, hopposite⟩ | ⟨rfl, rfl, rfl⟩ |
    ⟨rfl, rfl, rfl⟩ | ⟨rfl, rfl⟩ | ⟨rfl, opposite, hopposite, rfl⟩
  · rw [V.truth_const]
    cases V.truth e <;> rfl
  · rw [truth_negated hopposite, V.truth_const]
    cases V.truth e <;> rfl
  · rw [V.truth_const]
    cases V.truth acc' <;> rfl
  · rw [V.truth_const]
    cases V.truth e <;> rfl
  · rw [truth_disjunction_pair he hacc]
    rfl
  · rw [truth_conjunction_pair (kept_isCondition.negated he hopposite) hacc,
      truth_negated hopposite]
    rfl

/-! ## Guarded conditions -/

theorem Kept.guarded (hP : Kept P) {key : Column} {condition : Expr}
    (hkey : P (.nullTest true key)) (hcondition : P condition) : P (guarded key condition) :=
  hP.conjunction (by simp) (by simpa using ⟨hkey, hcondition⟩)

/-- A guarded condition is true where the key is there and the condition is true. -/
theorem eval_guarded {key : Column} {condition : Expr} (h : condition.IsCondition) :
    (guarded key condition).eval σ =
      (Truth.ofBool (σ key != .null)).and (condition.eval σ) := by
  rw [guarded, eval_conjunction_pair (l := .nullTest true key) trivial h]
  cases hnull : σ key == .null <;> simp [eval, hnull, bne]

theorem overrideGuarded_cases {acc : Option Expr}
    (h : overrideGuarded acc allow e = .ok acc') :
    (acc = none ∧ ((allow = true ∧ acc' = e) ∨ (allow = false ∧ e.negated = .ok acc'))) ∨
      ∃ before, acc = some before ∧ ((allow = true ∧ acc' = disjunction [e, before]) ∨
        (allow = false ∧ ∃ opposite, e.negated = .ok opposite ∧
          acc' = conjunction [opposite, before])) := by
  unfold overrideGuarded at h
  cases acc with
  | none =>
      cases allow with
      | true => exact Or.inl ⟨rfl, Or.inl ⟨rfl, (Except.ok.inj h).symm⟩⟩
      | false => exact Or.inl ⟨rfl, Or.inr ⟨rfl, h⟩⟩
  | some before =>
      refine Or.inr ⟨before, rfl, ?_⟩
      cases allow with
      | true => exact Or.inl ⟨rfl, (Except.ok.inj h).symm⟩
      | false =>
          refine Or.inr ⟨rfl, ?_⟩
          cases hopposite : e.negated with
          | error err => simp [hopposite, bind, Except.bind] at h
          | ok opposite =>
              simp only [hopposite, bind, Except.bind, pure, Except.pure,
                Bool.false_eq_true, if_false, Except.ok.injEq] at h
              exact ⟨opposite, rfl, h.symm⟩

/-- One more guarded condition can be combined with any filter. -/
theorem IsCondition.exists_overrideGuarded (h : e.IsCondition) (acc : Option Expr)
    (allow : Bool) : ∃ acc', overrideGuarded acc allow e = .ok acc' := by
  obtain ⟨opposite, hopposite⟩ := h.exists_negated
  unfold overrideGuarded
  cases acc with
  | none =>
      cases allow with
      | true => exact ⟨e, rfl⟩
      | false => exact ⟨opposite, hopposite⟩
  | some before =>
      cases allow with
      | true => exact ⟨_, rfl⟩
      | false => exact ⟨_, by rw [hopposite]; rfl⟩

/-- One more guarded condition keeps every property that combining conditions keeps. -/
theorem Kept.overrideGuarded (hP : Kept P) {acc : Option Expr} (hacc : ∀ e ∈ acc, P e)
    (he : P e) (h : overrideGuarded acc allow e = .ok acc') : P acc' := by
  rcases overrideGuarded_cases h with ⟨_, ⟨_, rfl⟩ | ⟨_, hopposite⟩⟩ |
    ⟨before, rfl, ⟨_, rfl⟩ | ⟨_, opposite, hopposite, rfl⟩⟩
  · exact he
  · exact hP.negated he hopposite
  · exact hP.disjunction (by simp) (by simpa using ⟨he, hacc before rfl⟩)
  · exact hP.conjunction (by simp)
      (by simpa using ⟨hP.negated he hopposite, hacc before rfl⟩)

/-- A step on guarded conditions has the truth value of the step on truth values; the
first step starts from what leaves the condition or its opposite. -/
theorem truth_overrideGuarded {acc : Option Expr} (hacc : ∀ e ∈ acc, e.IsCondition)
    (he : e.IsCondition) (h : overrideGuarded acc allow e = .ok acc') :
    V.truth acc' =
      Truth.override allow (V.truth e) (acc.elim (.ofBool !allow) V.truth) := by
  rcases overrideGuarded_cases h with ⟨rfl, ⟨rfl, rfl⟩ | ⟨rfl, hopposite⟩⟩ |
    ⟨before, rfl, ⟨rfl, rfl⟩ | ⟨rfl, opposite, hopposite, rfl⟩⟩
  · simp only [Option.elim, Truth.override]
    cases V.truth acc' <;> rfl
  · rw [truth_negated hopposite]
    simp only [Option.elim, Truth.override]
    cases V.truth e <;> rfl
  · rw [truth_disjunction_pair he (hacc before rfl)]
    rfl
  · rw [truth_conjunction_pair (kept_isCondition.negated he hopposite) (hacc before rfl),
      truth_negated hopposite]
    rfl

theorem eval_overrideGuarded {acc : Option Expr} (hacc : ∀ e ∈ acc, e.IsCondition)
    (he : e.IsCondition) (h : overrideGuarded acc allow e = .ok acc') :
    acc'.eval σ =
      Truth.override allow (e.eval σ) (acc.elim (.ofBool !allow) (eval σ)) :=
  truth_overrideGuarded (V := .ofAssignment σ) hacc he h

end Sql.Expr

end RowPolicy
