import RowPolicy.Filter.Precedence
import RowPolicy.Sql.Semantics

/-!
# The truth of combined conditions

Combining conditions settles constants at once and drops the ones that add nothing. The
result still has the truth value of the plain combination, in all three values, and it
keeps every property of its parts that the connectives keep.
-/

namespace RowPolicy.Sql

namespace Truth

/-- The connective of a combination: conjunction if `unit` is true, else disjunction. -/
def link (unit : Bool) : Truth → Truth → Truth := if unit then and else or

/-- Several truth values combined, from the last one to the first. -/
def combine (unit : Bool) (values : List Truth) : Truth :=
  values.foldr (link unit) (ofBool unit)

variable {unit : Bool}

@[simp] theorem combine_nil : combine unit [] = ofBool unit := rfl

@[simp] theorem combine_cons (t : Truth) (rest : List Truth) :
    combine unit (t :: rest) = link unit t (combine unit rest) := rfl

theorem link_assoc (a b c : Truth) :
    link unit (link unit a b) c = link unit a (link unit b c) := by
  cases unit <;> cases a <;> cases b <;> cases c <;> rfl

@[simp] theorem link_unit_left (t : Truth) : link unit (ofBool unit) t = t := by
  cases unit <;> cases t <;> rfl

@[simp] theorem link_unit_right (t : Truth) : link unit t (ofBool unit) = t := by
  cases unit <;> cases t <;> rfl

@[simp] theorem link_absorb_left (t : Truth) :
    link unit (ofBool !unit) t = ofBool !unit := by
  cases unit <;> cases t <;> rfl

@[simp] theorem link_absorb_right (t : Truth) :
    link unit t (ofBool !unit) = ofBool !unit := by
  cases unit <;> cases t <;> rfl

theorem combine_of_absorb {values : List Truth} (h : ofBool (!unit) ∈ values) :
    combine unit values = ofBool !unit := by
  induction values with
  | nil => cases h
  | cons t rest ih =>
      rcases List.mem_cons.mp h with rfl | hrest
      · exact link_absorb_left _
      · rw [combine_cons, ih hrest, link_absorb_right]

/-- A conjunction is true if all parts are. -/
@[simp] theorem combine_true_eq_yes {values : List Truth} :
    combine true values = yes ↔ ∀ t ∈ values, t = yes := by
  induction values with
  | nil => simp [ofBool]
  | cons t rest ih => simp [link, ih]

end Truth

/-- A reading of expressions: whatever truth values comparisons and texts have, constants and
connectives have theirs. -/
structure Valuation where
  truth : Expr → Truth
  truth_const (b : Bool) : truth (.const b) = .ofBool b
  truth_settled (b : Bool) : truth (.settled b) = .ofBool b
  truth_isNotTrue (e : Expr) : truth (.isNotTrue e) = (truth e).isNotTrue
  truth_and (l r : Expr) : truth (.and l r) = (truth l).and (truth r)
  truth_or (l r : Expr) : truth (.or l r) = (truth l).or (truth r)

/-- The reading in which columns hold what an assignment says. -/
def Valuation.ofAssignment (σ : Assignment) : Valuation where
  truth := Expr.eval σ
  truth_const _ := rfl
  truth_settled _ := rfl
  truth_isNotTrue _ := rfl
  truth_and _ _ := rfl
  truth_or _ _ := rfl

namespace Expr

/-- Conditions that can be combined and negated: what is blank, unknown or given as text
is none. -/
def IsCondition : Expr → Prop
  | unknown | blank _ | fragment _ => False
  | _ => True

/-- A property of conditions that combining and negating them keeps. -/
structure Kept (P : Expr → Prop) : Prop where
  const (b : Bool) : P (.const b)
  settled (b : Bool) : P (.settled b)
  isNotTrue {e : Expr} : P e → P (.isNotTrue e)
  and {l r : Expr} : P l → P r → P (.and l r)
  or {l r : Expr} : P l → P r → P (.or l r)
  isCondition {e : Expr} : P e → e.IsCondition

theorem IsCondition.isBlank_eq_false {e : Expr} (h : e.IsCondition) (unit : Bool) :
    e.isBlank unit = false := by
  cases e <;> first | rfl | exact h.elim

theorem kept_isCondition : Kept IsCondition where
  const _ := trivial
  settled _ := trivial
  isNotTrue _ := trivial
  and _ _ := trivial
  or _ _ := trivial
  isCondition h := h

section Combine

variable {unit : Bool} {link : Expr → Expr → Expr} {parts : List Expr}

/-- Conditions without blank parts are combined one after the other. -/
theorem linked_eq_foldl {first second : Expr} {rest : List Expr}
    (hparts : ∀ e ∈ first :: second :: rest, e.IsCondition) :
    linked unit link (first :: second :: rest) = rest.foldl link (link first second) := by
  have hfilter : (first :: second :: rest).filter (fun e => !e.isBlank unit) =
      first :: second :: rest := by
    rw [List.filter_eq_self]
    intro e he
    simp [(hparts e he).isBlank_eq_false unit]
  rw [linked, hfilter]
  rfl

/-- What combining several conditions can come to: a constant, one of the parts, or a
chain of parts that are not that constant. -/
theorem combine_cases (unit : Bool) (link : Expr → Expr → Expr) (hne : parts ≠ [])
    (hparts : ∀ e ∈ parts, e.IsCondition) :
    (Expr.const (!unit) ∈ parts ∧ combine unit link parts = settled !unit) ∨
    (Expr.const (!unit) ∉ parts ∧
      match parts.filter fun e => e.constant? != some unit with
      | [] => combine unit link parts = settled unit
      | [only] => combine unit link parts = only
      | first :: second :: rest =>
          combine unit link parts = rest.foldl link (link first second)) := by
  have hconstant : ∀ e : Expr, e.constant? = some (!unit) ↔ e = .const !unit := by
    intro e
    cases e <;> simp [constant?]
  have hany : (parts.any fun e => e.constant? == some (!unit)) = true ↔
      Expr.const (!unit) ∈ parts := by
    simp only [List.any_eq_true, beq_iff_eq, hconstant]
    exact ⟨fun ⟨_, he, heq⟩ => heq ▸ he, fun h => ⟨_, h, rfl⟩⟩
  have hempty : parts.isEmpty = false := by simpa using hne
  unfold combine
  rw [if_neg (by simp [hempty])]
  by_cases hmem : Expr.const (!unit) ∈ parts
  · exact Or.inl ⟨hmem, by rw [if_pos (hany.mpr hmem)]⟩
  · refine Or.inr ⟨hmem, ?_⟩
    rw [if_neg (fun h => hmem (hany.mp h))]
    cases hlist : parts.filter fun e => e.constant? != some unit with
    | nil => rfl
    | cons first tail =>
        cases tail with
        | nil => rfl
        | cons second rest =>
            refine linked_eq_foldl fun e he => hparts e ?_
            exact (List.mem_filter.mp (hlist ▸ he)).1

/-- A property that the connective keeps carries over from the parts to the whole. -/
theorem Kept.combine {P : Expr → Prop} (hP : Kept P)
    (hlink : ∀ l r, P l → P r → P (link l r)) (hne : parts ≠ []) (hparts : ∀ e ∈ parts, P e) :
    P (combine unit link parts) := by
  have hchain : ∀ (rest : List Expr) (first : Expr), P first → (∀ e ∈ rest, P e) →
      P (rest.foldl link first) := by
    intro rest
    induction rest with
    | nil => exact fun first hfirst _ => hfirst
    | cons e rest ih =>
        intro first hfirst hrest
        exact ih _ (hlink _ _ hfirst (hrest e List.mem_cons_self))
          fun e he => hrest e (List.mem_cons_of_mem _ he)
  rcases combine_cases unit link hne
    (fun e he => hP.isCondition (hparts e he)) with ⟨_, heq⟩ | ⟨_, heq⟩
  · exact heq ▸ hP.settled _
  · have hleft : ∀ e ∈ parts.filter fun e => e.constant? != some unit, P e :=
      fun e he => hparts e ((List.mem_filter.mp he).1)
    revert heq hleft
    cases parts.filter fun e => e.constant? != some unit with
    | nil => exact fun heq _ => heq ▸ hP.settled _
    | cons first tail =>
        cases tail with
        | nil => exact fun heq hleft => heq ▸ hleft first List.mem_cons_self
        | cons second rest =>
            intro heq hleft
            simp only [List.mem_cons, forall_eq_or_imp] at hleft
            exact heq ▸ hchain rest _ (hlink _ _ hleft.1 hleft.2.1) hleft.2.2

/-- The truth value of a combination is that of its parts combined. -/
theorem truth_combine {V : Valuation}
    (hlink : ∀ l r, V.truth (link l r) = Truth.link unit (V.truth l) (V.truth r))
    (hne : parts ≠ []) (hparts : ∀ e ∈ parts, e.IsCondition) :
    V.truth (combine unit link parts) = Truth.combine unit (parts.map V.truth) := by
  have hchain : ∀ (rest : List Expr) (first : Expr), V.truth (rest.foldl link first) =
      Truth.link unit (V.truth first) (Truth.combine unit (rest.map V.truth)) := by
    intro rest
    induction rest with
    | nil => intro first; simp
    | cons e rest ih =>
        intro first
        rw [List.foldl_cons, ih, hlink, List.map_cons, Truth.combine_cons, Truth.link_assoc]
  -- parts that are the constant `unit` do not count on either side
  have hdrop : ∀ parts : List Expr,
      Truth.combine unit ((parts.filter fun e => e.constant? != some unit).map V.truth) =
        Truth.combine unit (parts.map V.truth) := by
    intro parts
    induction parts with
    | nil => rfl
    | cons e rest ih =>
        by_cases he : e.constant? = some unit
        · have htruth : V.truth e = Truth.ofBool unit := by
            cases e <;> simp_all [constant?, V.truth_const]
          simpa [he, htruth] using ih
        · simpa [he] using congrArg (Truth.link unit (V.truth e)) ih
  rcases combine_cases unit link hne hparts with ⟨hmem, heq⟩ | ⟨_, heq⟩
  · have habsorb : Truth.ofBool (!unit) ∈ parts.map V.truth :=
      List.mem_map.mpr ⟨_, hmem, V.truth_const _⟩
    rw [heq, Truth.combine_of_absorb habsorb, V.truth_settled]
  · rw [← hdrop]
    revert heq
    cases parts.filter fun e => e.constant? != some unit with
    | nil => exact fun heq => by rw [heq, V.truth_settled]; rfl
    | cons first tail =>
        cases tail with
        | nil => exact fun heq => by rw [heq]; simp
        | cons second rest =>
            intro heq
            rw [heq, hchain, hlink, Truth.link_assoc]
            rfl

/-- A constant that adds nothing may stand in front, also of no part at all. -/
theorem truth_combine_unit {V : Valuation}
    (hlink : ∀ l r, V.truth (link l r) = Truth.link unit (V.truth l) (V.truth r))
    (hparts : ∀ e ∈ parts, e.IsCondition) :
    V.truth (combine unit link (.const unit :: parts)) =
      Truth.combine unit (parts.map V.truth) := by
  have hconditions : ∀ e ∈ Expr.const unit :: parts, e.IsCondition :=
    List.forall_mem_cons.mpr ⟨trivial, hparts⟩
  rw [truth_combine hlink (List.cons_ne_nil _ _) hconditions, List.map_cons, V.truth_const,
    Truth.combine_cons, Truth.link_unit_left]

end Combine

variable {parts : List Expr} {V : Valuation} {σ : Assignment}

theorem truth_conjunction (hne : parts ≠ []) (hparts : ∀ e ∈ parts, e.IsCondition) :
    V.truth (conjunction parts) = Truth.combine true (parts.map V.truth) :=
  truth_combine V.truth_and hne hparts

theorem truth_disjunction (hne : parts ≠ []) (hparts : ∀ e ∈ parts, e.IsCondition) :
    V.truth (disjunction parts) = Truth.combine false (parts.map V.truth) :=
  truth_combine V.truth_or hne hparts

theorem truth_conjunction_pair {l r : Expr} (hl : l.IsCondition) (hr : r.IsCondition) :
    V.truth (conjunction [l, r]) = (V.truth l).and (V.truth r) := by
  rw [truth_conjunction (by simp) (by simpa using ⟨hl, hr⟩)]
  exact congrArg (Truth.and (V.truth l)) (@Truth.link_unit_right true _)

theorem truth_disjunction_pair {l r : Expr} (hl : l.IsCondition) (hr : r.IsCondition) :
    V.truth (disjunction [l, r]) = (V.truth l).or (V.truth r) := by
  rw [truth_disjunction (by simp) (by simpa using ⟨hl, hr⟩)]
  exact congrArg (Truth.or (V.truth l)) (@Truth.link_unit_right false _)

theorem eval_conjunction (hne : parts ≠ []) (hparts : ∀ e ∈ parts, e.IsCondition) :
    (conjunction parts).eval σ = Truth.combine true (parts.map (eval σ)) :=
  truth_conjunction (V := .ofAssignment σ) hne hparts

theorem eval_conjunction_pair {l r : Expr} (hl : l.IsCondition) (hr : r.IsCondition) :
    (conjunction [l, r]).eval σ = (l.eval σ).and (r.eval σ) :=
  truth_conjunction_pair (V := .ofAssignment σ) hl hr

theorem Kept.conjunction {P : Expr → Prop} (hP : Kept P) (hne : parts ≠ [])
    (hparts : ∀ e ∈ parts, P e) : P (conjunction parts) :=
  hP.combine (fun _ _ => hP.and) hne hparts

theorem Kept.disjunction {P : Expr → Prop} (hP : Kept P) (hne : parts ≠ [])
    (hparts : ∀ e ∈ parts, P e) : P (disjunction parts) :=
  hP.combine (fun _ _ => hP.or) hne hparts

/-! ## The opposite of a condition -/

theorem negated_cases {e opposite : Expr} (h : e.negated = .ok opposite) :
    (∃ b, e = .const b ∧ opposite = .const !b) ∨ opposite = .isNotTrue e := by
  cases e <;> simp [negated, negate?] at h <;> simp [← h]

theorem IsCondition.exists_negated {e : Expr} (h : e.IsCondition) :
    ∃ opposite, e.negated = .ok opposite := by
  cases e <;> first | exact ⟨_, rfl⟩ | exact h.elim

theorem Kept.negated {P : Expr → Prop} (hP : Kept P) {e opposite : Expr} (he : P e)
    (h : e.negated = .ok opposite) : P opposite := by
  rcases negated_cases h with ⟨b, _, rfl⟩ | rfl
  · exact hP.const _
  · exact hP.isNotTrue he

theorem truth_negated {e opposite : Expr} (h : e.negated = .ok opposite) :
    V.truth opposite = (V.truth e).isNotTrue := by
  rcases negated_cases h with ⟨b, rfl, rfl⟩ | rfl
  · rw [V.truth_const, V.truth_const]
    cases b <;> rfl
  · exact V.truth_isNotTrue e

/-! ## What a condition depends on -/

/-- A condition with a property that depends on the tables it mentions, which all have a
property of their own. -/
theorem kept_forall_tables {P : Expr → Prop} (hP : Kept P) (Q : String → Prop) :
    Kept fun e => P e ∧ ∀ t ∈ e.tables, Q t where
  const b := ⟨hP.const b, by simp [Expr.tables]⟩
  settled b := ⟨hP.settled b, by simp [Expr.tables]⟩
  isNotTrue h := ⟨hP.isNotTrue h.1, by simpa [Expr.tables] using h.2⟩
  and hl hr := ⟨hP.and hl.1 hr.1, by
    intro t ht
    rw [Expr.tables, List.mem_append] at ht
    exact ht.elim (hl.2 t) (hr.2 t)⟩
  or hl hr := ⟨hP.or hl.1 hr.1, by
    intro t ht
    rw [Expr.tables, List.mem_append] at ht
    exact ht.elim (hl.2 t) (hr.2 t)⟩
  isCondition h := hP.isCondition h.1

/-- A condition with a property that depends on the tables it mentions: all of them
belong to the set. -/
theorem kept_tables {P : Expr → Prop} (hP : Kept P) (tables : List String) :
    Kept fun e => P e ∧ ∀ t ∈ e.tables, t ∈ tables :=
  kept_forall_tables hP (· ∈ tables)

/-- A conjunction of two conditions that is true mentions the tables of both, and if it is plain, so
are both. -/
theorem parts_conjunction_pair {l r : Expr} (hl : l.IsCondition) (hr : r.IsCondition)
    (h : (conjunction [l, r]).eval σ = .yes) :
    ∀ e ∈ [l, r], e.tables ⊆ (conjunction [l, r]).tables ∧
      ((conjunction [l, r]).isPlain = true → e.isPlain = true) := by
  -- only the constant `true` is dropped
  have hunit : ∀ e : Expr, ¬ (e.constant? != some true) = true →
      e.tables = [] ∧ e.isPlain = true := by
    intro e he
    cases e <;> simp_all [constant?, Expr.tables, isPlain]
  rcases combine_cases true .and (List.cons_ne_nil l [r]) (by simpa using ⟨hl, hr⟩) with
    ⟨_, heq⟩ | ⟨_, heq⟩
  · rw [conjunction, heq] at h
    cases h
  · simp only [List.filter_cons, List.filter_nil] at heq
    rw [conjunction]
    by_cases hleft : (l.constant? != some true) = true <;>
      by_cases hright : (r.constant? != some true) = true <;>
        simp only [hleft, hright, if_true, Bool.false_eq_true, if_false] at heq <;> rw [heq]
    · simp +contextual [Expr.tables, isPlain]
    · simp [hunit r hright]
    · simp [hunit l hleft]
    · simp [hunit l hleft, hunit r hright]

theorem kept_isPlain : Kept fun e => e.IsCondition ∧ e.isPlain = true where
  const _ := ⟨trivial, rfl⟩
  settled _ := ⟨trivial, rfl⟩
  isNotTrue h := ⟨trivial, h.2⟩
  and hl hr := ⟨trivial, by simp [isPlain, hl.2, hr.2]⟩
  or hl hr := ⟨trivial, by simp [isPlain, hl.2, hr.2]⟩
  isCondition h := h.1

/-- The truth value of a condition depends on the columns of its tables only. -/
theorem eval_congr {σ τ : Assignment} :
    ∀ e : Expr, (∀ c : Column, c.table ∈ e.tables → σ c = τ c) → e.eval σ = e.eval τ
  | .const _, _ | .settled _, _ | .unknown, _ | .blank _, _ | .fragment _, _ => rfl
  | .nullTest _ c, h | .compare _ c (.value _), h | .compare _ c (.truth _), h
  | .like _ c _, h | .member _ c _, h => by
      have hc : σ c = τ c := h c (by simp [Expr.tables])
      simp [eval, hc]
  | .compare _ c (.column d), h => by
      have hc : σ c = τ c := h c (by simp [Expr.tables])
      have hd : σ d = τ d := h d (by simp [Expr.tables, Operand.tables])
      simp [eval, hc, hd]
  | .isNotTrue e, h => by
      simp only [eval, eval_congr e h]
  | .and l r, h | .or l r, h => by
      have hl := eval_congr l fun c hc => h c (by simp [Expr.tables, hc])
      have hr := eval_congr r fun c hc => h c (by simp [Expr.tables, hc])
      simp only [eval, hl, hr]

end Expr

end RowPolicy.Sql
