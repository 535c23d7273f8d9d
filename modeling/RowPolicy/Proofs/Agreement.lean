import RowPolicy.Comparison
import RowPolicy.Proofs.PlainFold

/-!
# Tests in memory and in statements

A test is carried out twice: on a value in memory and, as a condition on a column, by a database.
Where integers are compared with integers or texts with texts, and nothing is missing, both give the
same answer. The only tests that also agree on a missing value are the two for null.
-/

namespace RowPolicy

open Sql (Affinity Assignment Column Expr Relation Truth)

/-! ## One question after the other -/

namespace Outcome

variable {ε α : Type} {f : α → Except ε Bool} {as : List α} {answers : List Bool}

theorem anyM_of_mapM (h : as.mapM f = .ok answers) : as.anyM f = .ok (answers.any id) := by
  have hall := mapM_eq_ok.mp h
  clear h
  induction hall with
  | nil => rfl
  | @cons a answer as answers ha _ ih =>
      rw [List.anyM_cons, ha]
      cases answer with
      | true => rfl
      | false => exact ih

theorem allM_of_mapM (h : as.mapM f = .ok answers) : as.allM f = .ok (answers.all id) := by
  have hall := mapM_eq_ok.mp h
  clear h
  induction hall with
  | nil => rfl
  | @cons a answer as answers ha _ ih =>
      rw [List.allM_cons, ha]
      cases answer with
      | true => exact ih
      | false => rfl

end Outcome

namespace Sql.Truth

theorem link_ofBool (unit a b : Bool) :
    link unit (ofBool a) (ofBool b) = ofBool (if unit then a && b else a || b) := by
  cases unit <;> cases a <;> cases b <;> rfl

theorem combine_ofBool (unit : Bool) (answers : List Bool) :
    combine unit (answers.map ofBool) =
      ofBool (if unit then answers.all id else answers.any id) := by
  induction answers with
  | nil => cases unit <;> rfl
  | cons answer rest ih =>
      rw [List.map_cons, combine_cons, ih, link_ofBool]
      cases unit <;> rfl

end Sql.Truth

/-! ## Scalars of one type -/

/-- The types whose values are compared alike in memory and in statements. -/
def ScalarType.IsCommon (type : ScalarType) : Prop := type = .integer ∨ type = .text

namespace Scalar

variable {type : ScalarType} {a b : Scalar}

theorem exists_of_type? (htype : type.IsCommon) (ha : a.type? = some type) :
    (type = .integer ∧ ∃ n, a = .int n) ∨ (type = .text ∧ ∃ s, a = .str s) := by
  rcases htype with rfl | rfl <;> cases a <;> simp [type?] at ha
  · exact Or.inl ⟨rfl, _, rfl⟩
  · exact Or.inr ⟨rfl, _, rfl⟩

/-- Two scalars of a common type have one order, which decides equality too. A column of that type
leaves both as they are. -/
theorem exists_order (htype : type.IsCommon) (ha : a.type? = some type)
    (hb : b.type? = some type) : ∃ o, a.order? b = some (some o) ∧ a.same b = (o == .eq) ∧
      Affinity.order? type.affinity a .none b = some o := by
  rcases exists_of_type? htype ha with ⟨rfl, m, rfl⟩ | ⟨rfl, s, rfl⟩
  · rcases exists_of_type? htype hb with ⟨_, n, rfl⟩ | ⟨hne, _⟩
    · exact ⟨compare m n, rfl, rfl, rfl⟩
    · cases hne
  · rcases exists_of_type? htype hb with ⟨hne, _⟩ | ⟨_, t, rfl⟩
    · cases hne
    · refine ⟨compare s t, rfl, ?_, rfl⟩
      rw [Bool.eq_iff_iff]
      simp [same, number?]

end Scalar

theorem Value.exists_scalar_of_type? {type : ScalarType} {v : Value} (h : v.type? = some type) :
    ∃ s : Scalar, v = .scalar s ∧ s.type? = some type := by
  cases v with
  | scalar s => exact ⟨s, rfl, h⟩
  | _ => cases h

/-! ## Operators -/

section Common

variable {type : ScalarType} {σ : Assignment} {c : Column} {b : Scalar} {items : List Value}

theorem Value.cell_of_type? (htype : type.IsCommon) (hb : b.type? = some type) :
    (Value.scalar b).cell = b := by
  rcases Scalar.exists_of_type? htype hb with ⟨_, n, rfl⟩ | ⟨_, s, rfl⟩ <;> rfl

theorem Sql.Relation.test_common (htype : type.IsCommon) (hcell : (σ c).type? = some type)
    (hcolumn : c.affinity = type.affinity) (hb : b.type? = some type) :
    Relation.eq.test c.affinity (σ c) .none b = .ofBool ((σ c).same b) := by
  obtain ⟨o, _, hsame, haffinity⟩ := Scalar.exists_order htype hcell hb
  simp [Relation.test, hcolumn, haffinity, hsame, Relation.holds]

/-- Looking a scalar up among others of its type asks for one that is the same. -/
theorem Value.elementOf_common (a : Scalar) (kind : CollectionKind)
    (hitems : ∀ item ∈ items, item.type? = some type) :
    (Value.scalar a).elementOf (.collection kind items) =
      .ok (items.any fun item => (Value.scalar a).same item) := by
  have hequals : items.mapM (fun item => (Value.scalar a).equals item) =
      .ok (items.map fun item => (Value.scalar a).same item) := by
    rw [Outcome.mapM_eq_ok, List.forall₂_map_right_iff, List.forall₂_same]
    intro item hitem
    obtain ⟨b, rfl, _⟩ := exists_scalar_of_type? (hitems item hitem)
    simp [equals, same]
  cases hset : kind.isSet with
  | true => simp [elementOf, hset, isKey]
  | false =>
      have hany := Outcome.anyM_of_mapM hequals
      rw [List.any_map] at hany
      simpa [elementOf, hset] using hany

/-- Values of a common type are passed as they are, also as a list. -/
theorem Sql.Column.cell_memberType (htype : type.IsCommon)
    (hitems : ∀ item ∈ items, item.type? = some type) :
    items.map (c.memberType items).cell = items.map Value.cell := by
  rw [List.map_inj_left]
  intro item hitem
  have hmember : c.memberType items = type := by
    cases items with
    | nil => cases hitem
    | cons first rest => simp [memberType, hitems first List.mem_cons_self]
  obtain ⟨b, rfl, hb⟩ := Value.exists_scalar_of_type? (hitems item hitem)
  rw [hmember]
  rcases Scalar.exists_of_type? htype hb with ⟨rfl, n, rfl⟩ | ⟨rfl, s, rfl⟩ <;> rfl

theorem Sql.memberTest_common (htype : type.IsCommon) (hcell : (σ c).type? = some type)
    (hcolumn : c.affinity = type.affinity) (hitems : ∀ item ∈ items, item.type? = some type) :
    memberTest c.affinity (σ c) (items.map Value.cell) =
      .ofBool (items.any fun item => (Value.scalar (σ c)).same item) := by
  induction items with
  | nil => rfl
  | cons item rest ih =>
      obtain ⟨hitem, hrest⟩ := List.forall_mem_cons.mp hitems
      obtain ⟨b, rfl, hb⟩ := Value.exists_scalar_of_type? hitem
      rw [List.map_cons, memberTest, ih hrest, Value.cell_of_type? htype hb,
        Relation.test_common htype hcell hcolumn hb, List.any_cons, Value.same]
      exact Truth.link_ofBool false _ _

end Common

namespace Operator

/-- Whether an operand suits an operator and consists of values of a type: one of them, or a
collection of them where elements are looked up. Patterns are left out. -/
def Takes (op : Operator) (type : ScalarType) (operand : Value) : Prop :=
  match op with
  | isIn | notIn => ∃ kind items, operand = .collection kind items ∧
      ∀ item ∈ items, item.type? = some type
  | like | notLike => False
  | _ => operand.type? = some type

/-- Whether an operator has one answer for a value in memory and for a column that holds it. -/
def Agrees (op : Operator) (σ : Assignment) (c : Column) (operand : Value) : Prop :=
  ∃ answer e, op.check (.scalar (σ c)) operand = .ok answer ∧ op.expr c operand = .ok e ∧
    e.eval σ = .ofBool answer

variable {op : Operator} {type : ScalarType} {operand : Value} {σ : Assignment} {c : Column}
  (htype : type.IsCommon) (hcell : (σ c).type? = some type) (hcolumn : c.affinity = type.affinity)
include htype hcell hcolumn

theorem agrees_equality (h : operand.type? = some type) :
    eq.Agrees σ c operand ∧ notEq.Agrees σ c operand := by
  obtain ⟨b, rfl, hb⟩ := Value.exists_scalar_of_type? h
  have hequality : ∀ negated : Bool, equality negated c (.scalar b) =
      .compare (if negated then .ne else .eq) c (.value (.scalar b)) := by
    intro negated
    rcases Scalar.exists_of_type? htype hb with ⟨_, n, rfl⟩ | ⟨_, s, rfl⟩ <;> rfl
  obtain ⟨o, _, hsame, haffinity⟩ := Scalar.exists_order htype hcell hb
  have htest : ∀ r : Relation,
      (Expr.compare r c (.value (.scalar b))).eval σ = .ofBool (r.holds o) := by
    intro r
    simp [Expr.eval, Relation.test, Value.cell_of_type? htype hb, hcolumn, haffinity]
  constructor
  · exact ⟨_, _, congrArg Except.ok hsame, congrArg Except.ok (hequality false), htest .eq⟩
  · refine ⟨!(o == .eq), _, ?_, congrArg Except.ok (hequality true), htest .ne⟩
    simp [check, Value.equals, hsame, Except.map]

/-- The four operators of order ask the same of the one order that two values have. -/
theorem agrees_ordering (h : operand.type? = some type) :
    lt.Agrees σ c operand ∧ ltEq.Agrees σ c operand ∧ gt.Agrees σ c operand ∧
      gtEq.Agrees σ c operand := by
  obtain ⟨b, rfl, hb⟩ := Value.exists_scalar_of_type? h
  obtain ⟨o, horder, _, haffinity⟩ := Scalar.exists_order htype hcell hb
  have hcompares : ∀ r : OrderRelation,
      (Value.scalar (σ c)).compares r (.scalar b) = .ok (r.holds o) := by
    intro r
    simp [Value.compares, Scalar.ordered, horder]
  have hordering : ∀ (op : Operator) (r : Relation),
      op.ordering r c (.scalar b) = .ok (.compare r c (.value (.scalar b))) := by
    intro op r
    rcases Scalar.exists_of_type? htype hb with ⟨_, n, rfl⟩ | ⟨_, s, rfl⟩ <;> rfl
  have htest : ∀ r : Relation,
      (Expr.compare r c (.value (.scalar b))).eval σ = .ofBool (r.holds o) := by
    intro r
    simp [Expr.eval, Relation.test, Value.cell_of_type? htype hb, hcolumn, haffinity]
  exact ⟨⟨_, _, hcompares .lt, hordering lt .lt, htest .lt⟩,
    ⟨_, _, hcompares .le, hordering ltEq .le, htest .le⟩,
    ⟨_, _, hcompares .gt, hordering gt .gt, htest .gt⟩,
    ⟨_, _, hcompares .ge, hordering gtEq .ge, htest .ge⟩⟩

/-- The empty collection is no exception: it has no element in memory and in a statement. -/
theorem agrees_membership (kind : CollectionKind) {items : List Value}
    (hitems : ∀ item ∈ items, item.type? = some type) :
    isIn.Agrees σ c (.collection kind items) ∧ notIn.Agrees σ c (.collection kind items) := by
  have hmembership : ∀ (op : Operator) (negated : Bool),
      op.membership negated c items = .ok (.member negated c items) := by
    intro op negated
    apply op.membership_of_scalars negated
    intro item hitem
    obtain ⟨b, rfl, _⟩ := Value.exists_scalar_of_type? (hitems item hitem)
    exact ⟨b, rfl⟩
  have hlooked := Value.elementOf_common (σ c) kind hitems
  have htest := Sql.memberTest_common htype hcell hcolumn hitems
  constructor
  · refine ⟨_, .member false c items, hlooked, hmembership isIn false, ?_⟩
    simp only [Expr.eval, Column.cell_memberType htype hitems, htest]
    rfl
  · refine ⟨!(items.any fun item => (Value.scalar (σ c)).same item), .member true c items, ?_,
      hmembership notIn true, ?_⟩
    · rw [check, hlooked]
      rfl
    · simp only [Expr.eval, Column.cell_memberType htype hitems, htest, if_true]
      cases items.any fun item => (Value.scalar (σ c)).same item <;> rfl

theorem agrees_of_takes (h : op.Takes type operand) : op.Agrees σ c operand := by
  have hequality (h : operand.type? = some type) := agrees_equality htype hcell hcolumn h
  have hordering (h : operand.type? = some type) := agrees_ordering htype hcell hcolumn h
  cases op with
  | eq => exact (hequality h).1
  | notEq => exact (hequality h).2
  | isIn =>
      obtain ⟨kind, items, rfl, hitems⟩ := h
      exact (agrees_membership htype hcell hcolumn kind hitems).1
  | notIn =>
      obtain ⟨kind, items, rfl, hitems⟩ := h
      exact (agrees_membership htype hcell hcolumn kind hitems).2
  | lt => exact (hordering h).1
  | ltEq => exact (hordering h).2.1
  | gt => exact (hordering h).2.2.1
  | gtEq => exact (hordering h).2.2.2
  | like => exact h.elim
  | notLike => exact h.elim

omit htype hcell hcolumn in
/-- A null test finds a missing value and nothing else, in memory and in a statement. -/
theorem agrees_null : eq.Agrees σ c .null ∧ notEq.Agrees σ c .null := by
  have hsame : (σ c).same .null = (σ c == .null) := by
    cases σ c <;> simp [Scalar.same, Scalar.number?]
  constructor
  · refine ⟨σ c == .null, .nullTest false c, ?_, rfl, ?_⟩
    · simp [check, Value.equals, hsame]
    · simp [Expr.eval]
  · refine ⟨!(σ c == .null), .nullTest true c, ?_, rfl, ?_⟩
    · simp [check, Value.equals, hsame, Except.map]
    · simp [Expr.eval]

omit htype hcell hcolumn in
theorem exists_parts {items : List Value} (h : ∀ item ∈ items, op.Agrees σ c item) :
    ∃ answers parts, items.mapM (op.check (.scalar (σ c))) = .ok answers ∧
      items.mapM (op.expr c) = .ok parts ∧ parts.map (Expr.eval σ) = answers.map Truth.ofBool := by
  induction items with
  | nil => exact ⟨[], [], rfl, rfl, rfl⟩
  | cons item rest ih =>
      obtain ⟨⟨answer, e, hcheck, hexpr, heval⟩, hrest⟩ := List.forall_mem_cons.mp h
      obtain ⟨answers, parts, hchecks, hexprs, hevals⟩ := ih hrest
      refine ⟨answer :: answers, e :: parts, ?_, ?_, ?_⟩
      · rw [List.mapM_cons, hcheck, hchecks]
        rfl
      · rw [List.mapM_cons, hexpr, hexprs]
        rfl
      · rw [List.map_cons, List.map_cons, heval, hevals]

end Operator

/-! ## Tests -/

namespace Test

/-- Whether an operand suits a test and consists of values of a type. -/
def Takes (t : Test) (type : ScalarType) (operand : Value) : Prop :=
  match t.quantifier with
  | .plain => t.operator.Takes type operand
  | .any | .all =>
      ∃ items, operand.elements? = some items ∧ ∀ item ∈ items, t.operator.Takes type item

/-- Whether a test has one answer for a value in memory and for a column that holds it: the
condition is true where the value passes, and false where it does not. -/
def Agrees (t : Test) (σ : Assignment) (c : Column) (operand : Value) : Prop :=
  ∃ answer e, t.passes operand (.scalar (σ c)) = .ok answer ∧ t.expr c operand = .ok e ∧
    e.eval σ = .ofBool answer

variable {t : Test} {σ : Assignment} {c : Column} {operand : Value}

theorem eval_combine_answers {unit : Bool} {link : Expr → Expr → Expr}
    (hlink : ∀ l r : Expr, (link l r).eval σ = Truth.link unit (l.eval σ) (r.eval σ))
    {parts : List Expr} {answers : List Bool} (hparts : ∀ e ∈ parts, e.IsCondition)
    (hevals : parts.map (Expr.eval σ) = answers.map Truth.ofBool) :
    (Expr.combine unit link (.const unit :: parts)).eval σ =
      .ofBool (if unit then answers.all id else answers.any id) := by
  have htruth : (Expr.combine unit link (.const unit :: parts)).eval σ =
      Truth.combine unit (parts.map (Expr.eval σ)) :=
    Expr.truth_combine_unit (V := .ofAssignment σ) hlink hparts
  rw [htruth, hevals, Truth.combine_ofBool]

/-- A quantified test agrees if its operator does for every element, also without any. -/
theorem agrees_of_elements (hquantifier : t.quantifier ≠ .plain) {items : List Value}
    (hitems : operand.elements? = some items) (h : ∀ item ∈ items, t.operator.Agrees σ c item) :
    t.Agrees σ c operand := by
  obtain ⟨answers, parts, hchecks, hexprs, hevals⟩ := Operator.exists_parts h
  have helements : operand.elements = .ok items := by
    rw [Value.elements, hitems]
  have hoperands : operand.operands = .ok items := by
    rw [Value.operands, helements]
    rfl
  have hconditions := isCondition_of_mapM hexprs
  -- in memory the elements after a decisive one are not looked at, but none of them fails
  cases hcase : t.quantifier with
  | plain => exact absurd hcase hquantifier
  | any =>
      refine ⟨answers.any id, .disjunction (.const false :: parts), ?_, ?_, ?_⟩
      · simp only [passes, hcase, helements]
        exact Outcome.anyM_of_mapM hchecks
      · simp only [expr, hcase]
        exact Outcome.bind_eq_ok.mpr
          ⟨items, hoperands, Outcome.bind_eq_ok.mpr ⟨parts, hexprs, rfl⟩⟩
      · exact eval_combine_answers (fun _ _ => rfl) hconditions hevals
  | all =>
      refine ⟨answers.all id, .conjunction (.const true :: parts), ?_, ?_, ?_⟩
      · simp only [passes, hcase, helements]
        exact Outcome.allM_of_mapM hchecks
      · simp only [expr, hcase]
        exact Outcome.bind_eq_ok.mpr
          ⟨items, hoperands, Outcome.bind_eq_ok.mpr ⟨parts, hexprs, rfl⟩⟩
      · exact eval_combine_answers (fun _ _ => rfl) hconditions hevals

/-- Every test other than a pattern, with an operand of integers or of texts, agrees where the
column holds a value of that type. The tests for null agree wherever they are made. -/
theorem agrees_on_common (σ : Assignment) (c : Column) :
    (∀ (t : Test) (type : ScalarType) (operand : Value), type.IsCommon →
      (σ c).type? = some type → c.affinity = type.affinity → t.Takes type operand →
        t.Agrees σ c operand) ∧
    (Test.mk .eq .plain).Agrees σ c .null ∧ (Test.mk .notEq .plain).Agrees σ c .null := by
  refine ⟨?_, Operator.agrees_null⟩
  intro t type operand htype hcell hcolumn htakes
  have hoperator : ∀ {item : Value}, t.operator.Takes type item → t.operator.Agrees σ c item :=
    fun h => Operator.agrees_of_takes htype hcell hcolumn h
  unfold Takes at htakes
  split at htakes
  next hplain =>
    obtain ⟨answer, e, hcheck, hexpr, heval⟩ := hoperator htakes
    exact ⟨answer, e, by simpa only [passes, hplain] using hcheck,
      by simpa only [expr, hplain] using hexpr, heval⟩
  all_goals
    next hquantified =>
      obtain ⟨items, hitems, hall⟩ := htakes
      exact agrees_of_elements (by simp [hquantified]) hitems fun item hitem =>
        hoperator (hall item hitem)

theorem agrees_on_common_notIn_all :
    (Test.mk .notIn .all).Agrees (fun _ => .int 5) ⟨"posts", "id", .integer⟩
        (.collection .list [.collection .tuple [.int 1, .int 2], .collection .list []]) ∧
      (Test.mk .notEq .plain).Agrees (fun _ => .null) ⟨"posts", "title", .text⟩ .null := by
  refine ⟨(agrees_on_common _ _).1 _ .integer _ (Or.inl rfl) rfl rfl ⟨_, rfl, ?_⟩,
    (agrees_on_common _ _).2.2⟩
  rw [List.forall_mem_cons, List.forall_mem_singleton]
  refine ⟨⟨_, _, rfl, ?_⟩, ⟨_, _, rfl, ?_⟩⟩
  · rw [List.forall_mem_cons, List.forall_mem_singleton]
    exact ⟨rfl, rfl⟩
  · exact List.forall_mem_nil _

end Test

end RowPolicy
