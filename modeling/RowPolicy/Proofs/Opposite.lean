import RowPolicy.Comparison
import RowPolicy.Proofs.Exchange
import RowPolicy.Proofs.PlainFold

/-!
# Opposite tests

Each operator has an opposite, and a test has the opposite operator with the other quantifier. In
memory the opposite test passes where the test does not, and it fails for the same reason. In a
statement its condition has the opposite truth value of the three, unless something given as text is
read as more than the one value in whose place it stands.
-/

namespace RowPolicy

open Sql (Affinity Assignment Column Expr Relation Truth Valuation)

/-! ## Opposites -/

namespace Operator

def opposite : Operator → Operator
  | eq => notEq
  | notEq => eq
  | isIn => notIn
  | notIn => isIn
  | lt => gtEq
  | ltEq => gt
  | gt => ltEq
  | gtEq => lt
  | like => notLike
  | notLike => like

@[simp] theorem opposite_opposite (op : Operator) : op.opposite.opposite = op := by
  cases op <;> rfl

/-- Whether an operator asks for the order of two values. -/
def IsOrdering (op : Operator) : Prop := op = lt ∨ op = ltEq ∨ op = gt ∨ op = gtEq

end Operator

/-- Something holds of no element exactly if its opposite holds of all. -/
def Quantifier.opposite : Quantifier → Quantifier
  | plain => plain
  | any => all
  | all => any

namespace Test

def opposite (t : Test) : Test := ⟨t.operator.opposite, t.quantifier.opposite⟩

@[simp] theorem opposite_opposite (t : Test) : t.opposite.opposite = t := by
  obtain ⟨op, quantifier⟩ := t
  cases quantifier <;> simp [opposite, Quantifier.opposite]

/-- The values that a test compares a value with. -/
def compared (t : Test) (operand : Value) : List Value :=
  match t.quantifier with
  | .plain => [operand]
  | .any | .all => operand.elements?.getD []

end Test

/-- The same failure, of the opposite operator where it is a failure of an operator. -/
def FilterError.opposite : FilterError → FilterError
  | unsuitable op => unsuitable op.opposite
  | e => e

def Sql.Relation.opposite : Relation → Relation
  | eq => ne
  | ne => eq
  | lt => ge
  | le => gt
  | gt => le
  | ge => lt

def OrderRelation.opposite : OrderRelation → OrderRelation
  | lt => ge
  | le => gt
  | gt => le
  | ge => lt

/-! ## Tests in memory -/

namespace Outcome

variable {ε α : Type} {f f' : α → Except ε Bool} {as : List α}

@[simp] theorem map_not_map_not (x : Except ε Bool) : (x.map (!·)).map (!·) = x := by
  cases x with
  | error e => rfl
  | ok b => simp [Except.map]

/-- Going through a list stops at the same element, be it for what holds of it or for what does
not. -/
theorem allM_of_not (h : ∀ a ∈ as, f' a = (f a).map (!·)) : as.allM f' = (as.anyM f).map (!·) := by
  induction as with
  | nil => rfl
  | cons a as ih =>
      obtain ⟨ha, has⟩ := List.forall_mem_cons.mp h
      rw [List.allM_cons, List.anyM_cons, ha]
      cases f a with
      | error e => rfl
      | ok b =>
          cases b with
          | true => rfl
          | false => exact ih has

theorem anyM_of_not (h : ∀ a ∈ as, f' a = (f a).map (!·)) : as.anyM f' = (as.allM f).map (!·) := by
  have hback : ∀ a ∈ as, f a = (f' a).map (!·) := by
    intro a ha
    rw [h a ha, map_not_map_not]
  rw [allM_of_not hback, map_not_map_not]

end Outcome

theorem Binary64.exists_compare? {x y : Binary64} (hx : x ≠ .nan) (hy : y ≠ .nan) :
    ∃ o, x.compare? y = some o := by
  cases x <;> cases y <;> first | contradiction | exact ⟨_, rfl⟩

/-- A scalar that is ordered beside others of its kind. -/
def Value.IsPoint (v : Value) : Prop := ∃ s : Scalar, v = .scalar s ∧ s ≠ .float .nan

theorem Scalar.order?_ne_unordered {a b : Scalar} (ha : a ≠ .float .nan) (hb : b ≠ .float .nan) :
    a.order? b ≠ some none := by
  have hexact : ∀ {s : Scalar} {x : Number}, s ≠ .float .nan → s.number? = some x →
      x.exact ≠ .nan := by
    intro s x hs hx
    cases s <;> simp [number?] at hx <;> subst hx <;> simp_all [Number.exact, Binary64.ofInt]
  cases hx : a.number? with
  | none =>
      cases hy : b.number? with
      | none => cases a <;> cases b <;> simp_all [order?, number?]
      | some y => simp [order?, hx, hy]
  | some x =>
      cases hy : b.number? with
      | none => simp [order?, hx, hy]
      | some y =>
          obtain ⟨o, ho⟩ := Binary64.exists_compare? (hexact ha hx) (hexact hb hy)
          cases x <;> cases y <;> simp_all [order?, Number.compare?]

theorem Value.compares_opposite {value operand : Value} (hvalue : value.IsPoint)
    (hoperand : operand.IsPoint) (r : OrderRelation) :
    value.compares r.opposite operand = (value.compares r operand).map (!·) := by
  obtain ⟨a, rfl, ha⟩ := hvalue
  obtain ⟨b, rfl, hb⟩ := hoperand
  simp only [compares, Scalar.ordered]
  cases horder : a.order? b with
  | none => rfl
  | some found =>
      cases found with
      | none => exact absurd horder (Scalar.order?_ne_unordered ha hb)
      | some o => cases r <;> cases o <;> rfl

/-- The opposite operator has the opposite answer, and fails where the operator does. -/
theorem Operator.check_opposite {op : Operator} {value operand : Value}
    (h : op.IsOrdering → value.IsPoint ∧ operand.IsPoint) :
    op.opposite.check value operand = (op.check value operand).map (!·) := by
  have hcompares : ∀ r : OrderRelation, op.IsOrdering →
      value.compares r.opposite operand = (value.compares r operand).map (!·) :=
    fun r hop => Value.compares_opposite (h hop).1 (h hop).2 r
  cases op with
  | eq => rfl
  | notEq => exact (Outcome.map_not_map_not _).symm
  | isIn => rfl
  | notIn => exact (Outcome.map_not_map_not _).symm
  | lt => exact hcompares .lt (by simp [IsOrdering])
  | ltEq => exact hcompares .le (by simp [IsOrdering])
  | gt => exact hcompares .gt (by simp [IsOrdering])
  | gtEq => exact hcompares .ge (by simp [IsOrdering])
  | like => rfl
  | notLike => simp [check, opposite, Except.map]

theorem Test.passes_opposite {t : Test} {operand value : Value}
    (h : t.operator.IsOrdering → ∀ v ∈ value :: t.compared operand, v.IsPoint) :
    t.opposite.passes operand value = (t.passes operand value).map (!·) := by
  have hcheck : ∀ item ∈ t.compared operand,
      t.operator.opposite.check value item = (t.operator.check value item).map (!·) := by
    intro item hitem
    apply Operator.check_opposite
    intro hop
    exact ⟨h hop value List.mem_cons_self, h hop item (List.mem_cons_of_mem _ hitem)⟩
  cases hquantifier : t.quantifier with
  | plain =>
      simp only [passes, opposite, hquantifier, Quantifier.opposite]
      exact hcheck operand (by simp [compared, hquantifier])
  | any =>
      simp only [passes, opposite, hquantifier, Quantifier.opposite, Value.elements]
      cases hitems : operand.elements? with
      | none => rfl
      | some items =>
          simp only [compared, hquantifier, hitems, Option.getD_some] at hcheck
          exact Outcome.allM_of_not hcheck
  | all =>
      simp only [passes, opposite, hquantifier, Quantifier.opposite, Value.elements]
      cases hitems : operand.elements? with
      | none => rfl
      | some items =>
          simp only [compared, hquantifier, hitems, Option.getD_some] at hcheck
          exact Outcome.anyM_of_not hcheck

/-! ## Readings of statements -/

namespace Sql

/-- The opposite truth value, if it is asked for. -/
def Truth.turned (negated : Bool) (t : Truth) : Truth := if negated then t.not else t

theorem Truth.turned_not (negated : Bool) (t : Truth) :
    t.turned (!negated) = (t.turned negated).not := by
  cases negated <;> cases t <;> rfl

theorem Truth.not_combine (unit : Bool) (values : List Truth) :
    (combine unit values).not = combine (!unit) (values.map not) := by
  induction values with
  | nil => cases unit <;> rfl
  | cons t rest ih =>
      rw [List.map_cons, combine_cons, combine_cons, ← ih]
      cases unit
      · exact not_or t _
      · exact not_and t _

theorem Relation.test_opposite (r : Relation) (f : Affinity) (a : Scalar) (g : Affinity)
    (b : Scalar) : r.opposite.test f a g b = (r.test f a g b).not := by
  unfold test
  cases f.order? a g b with
  | none => rfl
  | some o => cases r <;> cases o <;> rfl

/-- What a row comes to: the cell of each column and, for each part of a statement that stands for a
value, what it comes to in this row. -/
structure Reading where
  cells : Assignment
  part : Value → Affinity × Scalar

namespace Reading

/-- The reading in which parts of statements are missing values. -/
def ofAssignment (σ : Assignment) : Reading := ⟨σ, fun _ => (.none, .null)⟩

variable (R : Reading)

/-- What an operand comes to, converted to a type unless it is a part of the statement. -/
def operand (type? : Option ScalarType) (v : Value) : Affinity × Scalar :=
  if v.isPart then R.part v
  else
    match type? with
    | some type => (.none, type.cell v)
    | none => (.none, v.cell)

/-- The truth value of an expression in a row. -/
def truth : Expr → Truth
  | .const b | .settled b => .ofBool b
  | .unknown | .blank _ | .fragment _ => .unknown
  | .nullTest negated c => .ofBool ((R.cells c == .null) != negated)
  | .compare r c (.value v) =>
      r.test c.affinity (R.cells c) (R.operand none v).1 (R.operand none v).2
  | .compare r c (.truth b) => r.test c.affinity (R.cells c) .none (.bool b)
  | .compare r c (.column d) => r.test c.affinity (R.cells c) d.affinity (R.cells d)
  | .like negated c pattern =>
      (likeTest (R.cells c) (R.operand none pattern).2).turned negated
  | .member negated c values =>
      (memberTest c.affinity (R.cells c)
        (values.map fun v => (R.operand (some (c.memberType values)) v).2)).turned negated
  | .isNotTrue e => (truth e).isNotTrue
  | .and l r => (truth l).and (truth r)
  | .or l r => (truth l).or (truth r)

def valuation : Valuation where
  truth := R.truth
  truth_const _ := rfl
  truth_settled _ := rfl
  truth_isNotTrue _ := rfl
  truth_and _ _ := rfl
  truth_or _ _ := rfl

variable {R}

@[simp] theorem cells_ofAssignment (σ : Assignment) : (ofAssignment σ).cells = σ := rfl

theorem operand_ofAssignment (σ : Assignment) (v : Value) :
    (ofAssignment σ).operand none v = (.none, v.cell) ∧
      ∀ type, (ofAssignment σ).operand (some type) v = (.none, type.cell v) := by
  cases hpart : v.isPart with
  | false => simp [operand, hpart]
  | true =>
      have hcell : v.cell = .null ∧ ∀ type : ScalarType, type.cell v = .null := by
        cases v <;> simp [Value.isPart] at hpart
        all_goals
          refine ⟨rfl, fun type => ?_⟩
          cases type <;> rfl
      simp [operand, hpart, hcell, ofAssignment]

/-- An assignment of cells is a reading. -/
theorem truth_ofAssignment (σ : Assignment) (e : Expr) : (ofAssignment σ).truth e = e.eval σ := by
  fun_induction truth (ofAssignment σ) e <;>
    simp_all [Expr.eval, operand_ofAssignment, Truth.turned]

end Reading

end Sql

/-! ## Conditions -/

namespace Outcome

variable {ε ε' α β γ δ : Type}

/-- Two results that are both errors or both values, related to each other. -/
inductive Related (S : ε → ε' → Prop) (T : α → β → Prop) : Except ε α → Except ε' β → Prop
  | error {e : ε} {e' : ε'} (h : S e e') : Related S T (.error e) (.error e')
  | ok {a : α} {b : β} (h : T a b) : Related S T (.ok a) (.ok b)

namespace Related

variable {S : ε → ε' → Prop} {T : α → β → Prop} {U : γ → δ → Prop}

theorem bind {x : Except ε α} {y : Except ε' β} {f : α → Except ε γ} {g : β → Except ε' δ}
    (h : Related S T x y) (hf : ∀ a b, T a b → Related S U (f a) (g b)) :
    Related S U (x >>= f) (y >>= g) := by
  cases h with
  | error h => exact .error h
  | ok h => exact hf _ _ h

theorem imp {U : α → β → Prop} {x : Except ε α} {y : Except ε' β} (h : Related S T x y)
    (hU : ∀ a b, x = .ok a → y = .ok b → T a b → U a b) : Related S U x y := by
  cases h with
  | error h => exact .error h
  | ok h => exact .ok (hU _ _ rfl rfl h)

theorem mapM {f : γ → Except ε α} {g : γ → Except ε' β} {as : List γ}
    (h : ∀ a ∈ as, Related S T (f a) (g a)) :
    Related S (List.Forall₂ T) (as.mapM f) (as.mapM g) := by
  induction as with
  | nil => exact .ok .nil
  | cons a as ih =>
      obtain ⟨ha, has⟩ := List.forall_mem_cons.mp h
      rw [List.mapM_cons, List.mapM_cons]
      exact ha.bind fun _ _ hb => (ih has).bind fun _ _ hbs => .ok (.cons hb hbs)

end Related

end Outcome

/-- Two conditions of which one is true where the other one is false, in every reading. -/
def Sql.Expr.Opposed (e e' : Expr) : Prop := ∀ R : Reading, R.truth e' = (R.truth e).not

/-- Opposed conditions, or the same failure twice. -/
abbrev Opposed : Except FilterError Expr → Except FilterError Expr → Prop :=
  Outcome.Related (fun e e' => e' = e.opposite) Expr.Opposed

theorem Value.operands_related (v : Value) :
    Outcome.Related (fun e e' => e' = e.opposite) Eq v.operands v.operands := by
  unfold operands
  cases v.elements with
  | error f => exact .error rfl
  | ok items => exact .ok rfl

namespace Operator

theorem equality_opposed (negated : Bool) (c : Column) (v : Value) :
    (equality negated c v).Opposed (equality (!negated) c v) := by
  intro R
  have hrelation : (if !negated then Relation.ne else .eq) =
      (if negated then Relation.ne else .eq).opposite := by
    cases negated <;> rfl
  unfold equality
  simp only [hrelation]
  split
  · cases negated <;> cases hcell : R.cells c == .null <;> simp [Sql.Reading.truth, hcell] <;> rfl
  all_goals exact Relation.test_opposite _ _ _ _ _

theorem ordering_opposed (op : Operator) (r : Relation) (c : Column) (v : Value) :
    Opposed (op.ordering r c v) (op.opposite.ordering r.opposite c v) := by
  unfold ordering
  split
  · exact .error rfl
  · exact .ok fun R => r.test_opposite _ _ _ _

theorem pattern_opposed (op : Operator) (negated : Bool) (c : Column) (v : Value) :
    Opposed (op.pattern negated c v) (op.opposite.pattern (!negated) c v) := by
  unfold pattern
  split
  · exact .error rfl
  · exact .ok fun R => Truth.turned_not negated _

theorem membership_opposed (op : Operator) (negated : Bool) (c : Column) (values : List Value) :
    Opposed (op.membership negated c values) (op.opposite.membership (!negated) c values) := by
  unfold membership
  split
  · exact .error rfl
  split
  · exact .error rfl
  · exact .ok fun R => Truth.turned_not negated _

theorem expr_opposed (op : Operator) (c : Column) (v : Value) :
    Opposed (op.expr c v) (op.opposite.expr c v) := by
  cases op with
  | eq => exact .ok (equality_opposed false c v)
  | notEq => exact .ok (equality_opposed true c v)
  | isIn => exact v.operands_related.bind fun _ _ h => h ▸ isIn.membership_opposed false c _
  | notIn => exact v.operands_related.bind fun _ _ h => h ▸ notIn.membership_opposed true c _
  | lt => exact lt.ordering_opposed .lt c v
  | ltEq => exact ltEq.ordering_opposed .le c v
  | gt => exact gt.ordering_opposed .gt c v
  | gtEq => exact gtEq.ordering_opposed .ge c v
  | like => exact like.pattern_opposed false c v
  | notLike => exact notLike.pattern_opposed true c v

end Operator

/-- Conditions of which each one has its opposite are combined by the two connectives into
conditions that are opposites too, also if there are none. -/
theorem Sql.Expr.combine_opposed {unit : Bool} {link link' : Expr → Expr → Expr}
    (hlink : ∀ (R : Reading) l r, R.truth (link l r) = Truth.link unit (R.truth l) (R.truth r))
    (hlink' : ∀ (R : Reading) l r,
      R.truth (link' l r) = Truth.link (!unit) (R.truth l) (R.truth r))
    {parts parts' : List Expr}
    (h : List.Forall₂ (fun e e' => e.IsCondition ∧ e'.IsCondition ∧ e.Opposed e') parts parts') :
    (combine unit link (.const unit :: parts)).Opposed
      (combine (!unit) link' (.const (!unit) :: parts')) := by
  intro R
  have hparts : ∀ e ∈ parts, e.IsCondition := by
    intro e he
    obtain ⟨_, _, hcondition, _⟩ := Outcome.exists_of_mem_left h he
    exact hcondition
  have hparts' : ∀ e ∈ parts', e.IsCondition := by
    intro e he
    obtain ⟨_, _, _, hcondition, _⟩ := Outcome.exists_of_mem_right h he
    exact hcondition
  have htruths : parts'.map R.truth = (parts.map R.truth).map Truth.not := by
    clear hparts hparts'
    induction h with
    | nil => rfl
    | cons hhead _ ih => simp only [List.map_cons, ih, hhead.2.2 R]
  have hleft : R.truth (combine unit link (.const unit :: parts)) =
      Truth.combine unit (parts.map R.truth) :=
    truth_combine_unit (V := R.valuation) (hlink R) hparts
  have hright : R.truth (combine (!unit) link' (.const (!unit) :: parts')) =
      Truth.combine (!unit) (parts'.map R.truth) :=
    truth_combine_unit (V := R.valuation) (hlink' R) hparts'
  rw [hleft, hright, Truth.not_combine, htruths]

namespace Test

theorem expr_opposed (t : Test) (c : Column) (operand : Value) :
    Opposed (t.expr c operand) (t.opposite.expr c operand) := by
  have hparts : ∀ items : List Value, Outcome.Related (fun e e' => e' = e.opposite)
      (List.Forall₂ fun e e' : Expr => e.IsCondition ∧ e'.IsCondition ∧ e.Opposed e')
      (items.mapM (t.operator.expr c)) (items.mapM (t.operator.opposite.expr c)) := by
    intro items
    apply Outcome.Related.mapM
    intro item _
    apply (t.operator.expr_opposed c item).imp
    intro e e' he he' hopposed
    exact ⟨(Operator.expr_keepsTo he).isCondition, (Operator.expr_keepsTo he').isCondition,
      hopposed⟩
  cases hquantifier : t.quantifier with
  | plain =>
      simp only [expr, opposite, hquantifier, Quantifier.opposite]
      exact t.operator.expr_opposed c operand
  | _ =>
      simp only [expr, opposite, hquantifier, Quantifier.opposite]
      refine operand.operands_related.bind ?_
      rintro items _ rfl
      refine (hparts items).bind fun parts parts' h => .ok ?_
      exact Sql.Expr.combine_opposed (fun _ _ _ => rfl) (fun _ _ _ => rfl) h

/-- The opposite test has the opposite answer in memory and the opposite condition in a statement,
and where one of them fails, so does the other. Tests of order may not be made with what is not a
number. -/
theorem opposite_answers (t : Test) (operand : Value) :
    (∀ value : Value,
      (t.operator.IsOrdering → ∀ v ∈ value :: t.compared operand, v.IsPoint) →
        t.opposite.passes operand value = (t.passes operand value).map (!·)) ∧
    ∀ c : Column, Opposed (t.expr c operand) (t.opposite.expr c operand) ∧
      ∀ e e', t.expr c operand = .ok e → t.opposite.expr c operand = .ok e' →
        ∀ σ : Assignment, e'.eval σ = (e.eval σ).not := by
  refine ⟨fun value h => passes_opposite h, fun c => ⟨t.expr_opposed c operand, ?_⟩⟩
  intro e e' he he' σ
  have hopposed := t.expr_opposed c operand
  rw [he, he'] at hopposed
  cases hopposed with
  | ok hopposed => simpa only [Sql.Reading.truth_ofAssignment] using hopposed (.ofAssignment σ)

/-- The first element decides, so null is not compared with; a statement compares with both. -/
theorem opposite_answers_lt_any :
    (Test.mk .gtEq .all).passes (.collection .list [.int 7, .null]) (.int 5) = .ok false ∧
      ∀ c, Opposed ((Test.mk .lt .any).expr c (.collection .list [.int 7, .null]))
        ((Test.mk .gtEq .all).expr c (.collection .list [.int 7, .null])) := by
  obtain ⟨hpasses, hexprs⟩ := opposite_answers ⟨.lt, .any⟩ (.collection .list [.int 7, .null])
  refine ⟨(hpasses (.int 5) fun _ => ?_).trans ?_, fun c => (hexprs c).1⟩
  · intro v hv
    have hpoints : v = .int 5 ∨ v = .int 7 ∨ v = .null := by
      simpa [compared, Value.elements?] using hv
    rcases hpoints with rfl | rfl | rfl
    all_goals exact ⟨_, rfl, by simp⟩
  · rfl

end Test

/-! A text that is not read as one value may make a condition and its opposite true at once. -/

namespace Query

/-- Posts are readable if a test of their number with a text is passed. -/
def looseRule (t : Test) : Rule :=
  Sample.readRule true "Post" (.literal "id" (.comparison t (.expr (.fragment "1 OR 1"))) .nil)

/-- A text that is copied behind the column is no value that is compared with it. -/
theorem readsPosts_loose : ReadsPosts [looseRule ⟨.eq, .plain⟩] [.int 1, .int 2, .int 3, .int 4] ∧
    ReadsPosts [looseRule ⟨.notEq, .plain⟩] [.int 1, .int 2, .int 3, .int 4] := by
  constructor
  · refine ⟨_, _, _, rfl, ?_⟩
    have hnull : String.contains (postsWhere ++ "posts.id = 1 OR 1") '\x00' = false := by cbv
    rw [Sql.Select.runKeys, Sql.Select.run_of_template rfl rfl (by cbv) rfl rfl
      (by decide +kernel) hnull, Sql.ReadQuery.ofText, hnull]
    decide +kernel
  · refine ⟨_, _, _, rfl, ?_⟩
    have hnull : String.contains (postsWhere ++ "posts.id != 1 OR 1") '\x00' = false := by cbv
    rw [Sql.Select.runKeys, Sql.Select.run_of_template rfl rfl (by cbv) rfl rfl
      (by decide +kernel) hnull, Sql.ReadQuery.ofText, hnull]
    decide +kernel

theorem opposites_both_true : ∃ (t : Test) (keys : List Scalar), keys ≠ [] ∧
    ReadsPosts [looseRule t] keys ∧ ReadsPosts [looseRule t.opposite] keys :=
  ⟨⟨.eq, .plain⟩, _, List.cons_ne_nil _ _, readsPosts_loose.1, readsPosts_loose.2⟩

end Query

end RowPolicy
