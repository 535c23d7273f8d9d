import RowPolicy.Proofs.Entry
import RowPolicy.Proofs.Precedence
import RowPolicy.Proofs.Running
import RowPolicy.Query.Records
import RowPolicy.Sample.Queries
import RowPolicy.Sample.Rows

/-!
# Collections as alternatives

A collection that a column is compared with stands for its elements: the condition is true where it
is true for one of them. Null is none of these alternatives, since the elements are looked up, and
they are converted to one type, that of the first element. A denial of a collection therefore leaves
the rows that the denials of its alternatives leave one after the other. Where an element cannot be
converted and passed, no statement with the condition can be run at all.
-/

namespace RowPolicy

open Sql (Affinity Assignment Column Database Expr Piece Relation Select Template Truth)

/-- The values that are passed for the elements of a list beside a column, all converted to the
type of the list. -/
def Sql.Column.memberValues (c : Column) (items : List Value) :
    Except Sql.RunError (List Value) := do
  let values ← Sql.convertAll (items.map fun v => (c.memberType items, v))
  let _ ← Sql.passAll values
  return values

/-! ## Conditions in a filter -/

namespace Sql.Expr

/-- Whether a condition occurs in another one, as a whole or as a part that is combined or
negated. -/
inductive Occurs (e : Expr) : Expr → Prop
  | here : Occurs e e
  | isNotTrue {p : Expr} (h : Occurs e p) : Occurs e (.isNotTrue p)
  | andLeft {l r : Expr} (h : Occurs e l) : Occurs e (.and l r)
  | andRight {l r : Expr} (h : Occurs e r) : Occurs e (.and l r)
  | orLeft {l r : Expr} (h : Occurs e l) : Occurs e (.or l r)
  | orRight {l r : Expr} (h : Occurs e r) : Occurs e (.or l r)

variable {e p : Expr}

theorem Occurs.trans {e' : Expr} (h : e.Occurs p) (h' : e'.Occurs e) : e'.Occurs p := by
  induction h with
  | here => exact h'
  | isNotTrue _ ih => exact .isNotTrue ih
  | andLeft _ ih => exact .andLeft ih
  | andRight _ ih => exact .andRight ih
  | orLeft _ ih => exact .orLeft ih
  | orRight _ ih => exact .orRight ih

theorem subset_separate (separator : String) (l r : Template) :
    l ⊆ Template.separate separator l r ∧ r ⊆ Template.separate separator l r := by
  unfold Template.separate
  split
  next hl => exact ⟨by simp [List.isEmpty_iff.mp hl], List.Subset.refl _⟩
  next =>
    split
    next hr => exact ⟨List.Subset.refl _, by simp [List.isEmpty_iff.mp hr]⟩
    next =>
      exact ⟨List.subset_append_left _ _,
        List.Subset.trans (List.subset_cons_self _ _) (List.subset_append_right _ _)⟩

theorem subset_parenthesized (template : Template) : template ⊆ template.parenthesized := by
  intro piece hpiece
  simp [Template.parenthesized, hpiece]

/-- What is written for a condition is also written where it occurs. -/
theorem Occurs.template_subset (h : e.Occurs p) (around : List String) :
    e.template around ⊆ p.template around := by
  have hbesideAnd : ∀ e : Expr, e.template around ⊆ e.besideAnd (e.template around) := by
    intro e
    unfold besideAnd
    split
    · exact subset_parenthesized _
    · exact List.Subset.refl _
  have henclosed : ∀ e : Expr, e.template around ⊆ e.enclosed (e.template around) := by
    intro e
    unfold enclosed
    split
    · exact List.Subset.refl _
    · exact subset_parenthesized _
  induction h with
  | here => exact List.Subset.refl _
  | isNotTrue _ ih =>
      rw [Expr.template]
      exact List.Subset.trans ih (List.Subset.trans (henclosed _) (List.subset_append_left _ _))
  | andLeft _ ih =>
      rw [Expr.template]
      exact List.Subset.trans ih
        (List.Subset.trans (hbesideAnd _) (subset_separate " AND " _ _).1)
  | andRight _ ih =>
      rw [Expr.template]
      exact List.Subset.trans ih
        (List.Subset.trans (hbesideAnd _) (subset_separate " AND " _ _).2)
  | orLeft _ ih =>
      rw [Expr.template]
      exact List.Subset.trans ih (subset_separate " OR " _ _).1
  | orRight _ ih =>
      rw [Expr.template]
      exact List.Subset.trans ih (subset_separate " OR " _ _).2

/-- Both conditions occur in a conjunction, unless they are constants. -/
theorem occurs_conjunction_pair {l r : Expr} (hl : l.IsCondition) (hr : r.IsCondition)
    (hconstant : l.constant? = none) (hfalse : r ≠ .const false) :
    l.Occurs (conjunction [l, r]) := by
  rcases combine_cases true .and (List.cons_ne_nil l [r]) (by simpa using ⟨hl, hr⟩) with
    ⟨hmem, _⟩ | ⟨_, heq⟩
  · rcases List.mem_pair.mp hmem with rfl | rfl
    · cases hconstant
    · exact (hfalse rfl).elim
  · simp only [List.filter_cons, List.filter_nil, hconstant] at heq
    rw [conjunction]
    by_cases hright : (r.constant? != some true) = true <;>
      simp only [hright, if_true, Bool.false_eq_true, if_false] at heq <;> rw [heq]
    · exact .andLeft .here
    · exact .here

/-- A condition that is denied occurs in the filter, unless no row was selected before. -/
theorem occurs_override {acc acc' : Expr} (hacc : acc.IsCondition) (he : e.IsCondition)
    (hconstant : e.constant? = none) (h : acc.override false (some e) = .ok acc') :
    acc = .const false ∨ e.Occurs acc' := by
  have hnegated : ∀ {opposite}, e.negated = .ok opposite → opposite = .isNotTrue e := by
    intro opposite hopposite
    refine (negated_cases hopposite).resolve_left ?_
    rintro ⟨b, rfl, _⟩
    cases hconstant
  by_cases hfalse : acc = .const false
  · exact Or.inl hfalse
  refine Or.inr ?_
  rcases override_cases h with ⟨hnone, _⟩ | ⟨_, hsome, hcases⟩
  · cases hnone
  obtain rfl := Option.some.inj hsome
  rcases hcases with ⟨_, hallow, _⟩ | ⟨_, _, hopposite⟩ | ⟨_, hallow, _⟩ | ⟨hnone, _⟩ |
    ⟨hallow, _⟩ | ⟨_, opposite, hopposite, rfl⟩
  · cases hallow
  · exact hnegated hopposite ▸ .isNotTrue .here
  · cases hallow
  · exact (hfalse hnone).elim
  · cases hallow
  · obtain rfl := hnegated hopposite
    have hpair := occurs_conjunction_pair (l := .isNotTrue e) trivial hacc rfl hfalse
    exact hpair.trans (.isNotTrue .here)

end Sql.Expr

/-! ## Passing the elements -/

namespace Sql

variable {c : Column} {items values : List Value}

theorem convertAll_eq_ok {entries : List (ScalarType × Value)} :
    convertAll entries = .ok values ↔
      List.Forall₂ (fun entry v => entry.1.convert? entry.2 = some v) entries values := by
  unfold convertAll
  rw [Outcome.mapM_eq_ok]
  constructor <;>
  · intro h
    refine h.imp fun entry v hv => ?_
    cases hconvert : entry.1.convert? entry.2 <;> simp_all

/-- The elements of a list are passed if each can be converted to the type of the list and then be
passed. -/
theorem memberValues_eq_ok : c.memberValues items = .ok values ↔
    List.Forall₂ (fun item v => (c.memberType items).convert? item = some v) items values ∧
      ∃ cells, passAll values = .ok cells := by
  simp only [Column.memberValues, Outcome.bind_eq_ok, Outcome.pure_eq_ok, convertAll_eq_ok,
    List.forall₂_map_left_iff]
  constructor
  · rintro ⟨_, hvalues, cells, hcells, rfl⟩
    exact ⟨hvalues, cells, hcells⟩
  · rintro ⟨hvalues, cells, hcells⟩
    exact ⟨values, hvalues, cells, hcells, rfl⟩

/-- Where a list is looked up in a statement that was run, its elements were passed. -/
theorem Select.exists_memberValues {s : Select} {db : Database} {rows : List (List Scalar)}
    (hrun : s.run db = .ok rows) {negated : Bool}
    (hpiece : Piece.members c negated items ∈ s.template) :
    ∃ values, c.memberValues items = .ok values := by
  obtain ⟨_, hpassed⟩ := exists_passed hrun
  unfold passed at hpassed
  simp only [Outcome.bind_eq_ok] at hpassed
  obtain ⟨all, hall, _, _, hcells⟩ := hpassed
  have hconverted := convertAll_eq_ok.mp (convertAll_of_convertedValues hall)
  have hentry : ∀ item ∈ items, ∃ v ∈ all, (c.memberType items).convert? item = some v := by
    intro item hitem
    refine Outcome.exists_of_mem_left hconverted (a := (c.memberType items, item)) ?_
    exact List.mem_flatMap.mpr ⟨_, hpiece, List.mem_map.mpr ⟨item, hitem, rfl⟩⟩
  have hpass : ∀ v ∈ all, ∃ cell, v.pass.mapError RunError.parameter = .ok cell :=
    Outcome.exists_mapM_iff.mp ⟨_, hcells⟩
  -- what was passed for the elements is chosen among all values that were passed
  choose! value hvalue hconvert using hentry
  refine ⟨items.map value, memberValues_eq_ok.mpr ⟨?_, Outcome.exists_mapM_iff.mpr ?_⟩⟩
  · rw [List.forall₂_map_right_iff, List.forall₂_same]
    exact hconvert
  · intro v hv
    obtain ⟨item, hitem, rfl⟩ := List.mem_map.mp hv
    exact hpass _ (hvalue item hitem)

end Sql

/-! ## Looking up a cell -/

namespace Sql

theorem Relation.test_null (r : Relation) (f : Affinity) (a : Scalar) :
    r.test f a .none .null = .unknown := by
  have hadapt : Affinity.adapt .none f .null = .null := by
    cases f <;> rfl
  simp [test, Affinity.order?, hadapt, Scalar.cellOrder?]

theorem memberTest_eq_yes {f : Affinity} {cell : Scalar} {others : List Scalar} :
    memberTest f cell others = .yes ↔
      ∃ other ∈ others, Relation.eq.test f cell .none other = .yes := by
  induction others with
  | nil => simp [memberTest]
  | cons other rest ih => simp [memberTest, ih]

end Sql

namespace ScalarType

variable {type : ScalarType}

theorem exists_scalar_of_convert? {s : Scalar} {v : Value}
    (h : type.convert? (.scalar s) = some v) : ∃ s' : Scalar, v = .scalar s' := by
  unfold convert? at h
  split at h
  · exact ⟨_, (Option.some.inj h).symm⟩
  · obtain ⟨b, _, rfl⟩ := Option.map_eq_some_iff.mp h
    exact ⟨_, rfl⟩
  · obtain ⟨x, _, rfl⟩ := Option.map_eq_some_iff.mp h
    exact ⟨_, rfl⟩
  · exact ⟨_, (Option.some.inj h).symm⟩
  · cases h
  · exact ⟨_, (Option.some.inj h).symm⟩
  · exact ⟨_, (Option.some.inj h).symm⟩

/-- Values of a type and null are kept by conversion to it. Integers and texts keep all values. -/
theorem convert?_of_type? {v : Value}
    (h : v.isNull = true ∨ v.type? = some type ∨ type = .integer ∨ type = .text) :
    type.convert? v = some v := by
  rcases h with hnull | htype | rfl | rfl
  · cases v with
    | scalar s => cases s <;> simp [Value.isNull] at hnull; cases type <;> rfl
    | _ => simp [Value.isNull] at hnull
  · cases v with
    | scalar s =>
        cases s <;> simp [Value.type?, Scalar.type?] at htype
        all_goals
          subst htype
          rfl
    | _ => cases htype
  · cases v with
    | scalar s => cases s <;> rfl
    | _ => rfl
  · cases v with
    | scalar s => cases s <;> rfl
    | _ => rfl

end ScalarType

namespace Value

/-- The values of a list other than null. -/
def alternatives (values : List Value) : List Value := values.filter fun v => !v.isNull

variable {c : Column} {items values : List Value}

theorem mem_alternatives {v : Value} : v ∈ alternatives values ↔ v ∈ values ∧ v.isNull = false := by
  simp [alternatives]

/-- A cell is among the elements of a list exactly if it is equal to one of the values passed for
them that is not null. -/
theorem eval_member_eq_yes (h : c.memberValues items = .ok values) {σ : Assignment} :
    (Expr.member false c items).eval σ = .yes ↔
      ∃ v ∈ alternatives values, Relation.eq.test c.affinity (σ c) .none v.cell = .yes := by
  have hcells : items.map (c.memberType items).cell = values.map cell := by
    rw [← List.forall₂_eq_eq_eq, List.forall₂_map_left_iff, List.forall₂_map_right_iff]
    refine (Sql.memberValues_eq_ok.mp h).1.imp fun item v hconvert => ?_
    rw [ScalarType.cell, hconvert, Option.getD_some]
  simp only [Expr.eval, Bool.false_eq_true, if_false, Sql.memberTest_eq_yes, hcells,
    List.mem_map, exists_exists_and_eq_and, mem_alternatives]
  refine exists_congr fun v => and_congr_left fun htest => ?_
  refine (and_iff_left ?_).symm
  -- nothing is equal to null
  by_contra hnull
  have hcell : v.cell = .null := by
    cases v with
    | scalar s => cases s <;> simp [isNull] at hnull; rfl
    | _ => rfl
  rw [hcell] at htest
  exact absurd ((Relation.test_null _ _ _).symm.trans htest) (by decide)

/-- The condition for a scalar other than null asks whether the column is equal to it. -/
theorem leaf_of_scalar {s : Scalar} (hs : (Value.scalar s).isNull = false) :
    ∃ e, (Value.scalar s).leaf c = .ok e ∧ ∀ σ : Assignment,
      e.eval σ = Relation.eq.test c.affinity (σ c) .none (Value.scalar s).cell := by
  cases s with
  | null => cases hs
  | _ => exact ⟨_, rfl, fun _ => rfl⟩

end Value

/-! ## Denials one after the other -/

/-- Conditions denied one after the other leave what was there where none of them is true. -/
theorem Sql.Expr.exists_denyAll {p : Expr} (hp : p.IsCondition) {es : List Expr}
    (hes : ∀ e ∈ es, e.IsCondition) :
    ∃ p', es.foldlM (fun acc e => acc.override false (some e)) p = .ok p' ∧
      ∀ σ : Assignment, p'.eval σ = .yes ↔ (∀ e ∈ es, e.eval σ ≠ .yes) ∧ p.eval σ = .yes := by
  induction es generalizing p with
  | nil => exact ⟨p, rfl, by simp⟩
  | cons e es ih =>
      obtain ⟨he, hrest⟩ := List.forall_mem_cons.mp hes
      have hcondition : ∀ e' ∈ some e, e'.IsCondition := by
        rintro _ ⟨⟩
        exact he
      obtain ⟨acc, hacc⟩ := exists_override p false hcondition
      obtain ⟨p', hp', heval⟩ := ih (kept_isCondition.override hp hcondition hacc) hrest
      refine ⟨p', ?_, fun σ => ?_⟩
      · rw [List.foldlM_cons, hacc]
        exact hp'
      · have htruth : acc.eval σ = (e.eval σ).isNotTrue.and (p.eval σ) :=
          truth_override (V := .ofAssignment σ) hp hcondition hacc
        rw [heval, htruth, Truth.and_eq_yes, Truth.isNotTrue_eq_yes, List.forall_mem_cons]
        exact and_left_comm.trans and_assoc.symm

/-! ## The condition for a collection -/

namespace Value

variable {c : Column} {items values : List Value}

/-- Scalars of the type of the list are passed as they are, unless an integer is too large, and so
are all scalars if that is the type of integers or of texts. -/
theorem memberValues_of_type? (hitems : ∀ item ∈ items, ∃ s : Scalar, item = .scalar s)
    (h : ∀ item ∈ items, item.isNull = true ∨ item.type? = some (c.memberType items) ∨
      c.memberType items = .integer ∨ c.memberType items = .text) :
    c.memberValues items = .ok values ↔
      values = items ∧ ∀ n : Int, .int n ∈ items → Scalar.fits n = true := by
  have hconvert : items.map (c.memberType items).convert? = items.map some :=
    List.map_congr_left fun item hitem => ScalarType.convert?_of_type? (h item hitem)
  have hsame : List.Forall₂ (fun item v => (c.memberType items).convert? item = some v)
      items values ↔ values = items := by
    rw [← List.forall₂_map_right_iff (f := some), ← List.forall₂_map_left_iff,
      List.forall₂_eq_eq_eq, hconvert, eq_comm]
    exact (List.map_injective_iff.mpr fun _ _ => Option.some.inj).eq_iff
  rw [Sql.memberValues_eq_ok, hsame]
  refine and_congr_right fun heq => ?_
  rw [heq, Sql.passAll, Outcome.exists_mapM_iff]
  simp only [Outcome.mapError_eq_ok]
  constructor
  · intro hpass n hn
    obtain ⟨cell, hcell⟩ := hpass _ hn
    by_contra hlarge
    simp [pass, hlarge] at hcell
  · intro hfits item hitem
    obtain ⟨s, rfl⟩ := hitems item hitem
    cases s with
    | int n => exact ⟨.int n, by simp [pass, hfits n hitem]⟩
    | _ => exact ⟨_, rfl⟩

/-- The conditions for the alternatives among some scalars. -/
theorem exists_leaves (c : Column) (hvalues : ∀ v ∈ values, ∃ s : Scalar, v = .scalar s) :
    ∃ es, (alternatives values).mapM (leaf c) = .ok es ∧ ∀ σ : Assignment,
      (∃ e ∈ es, e.eval σ = .yes) ↔
        ∃ v ∈ alternatives values, Relation.eq.test c.affinity (σ c) .none v.cell = .yes := by
  have hleaf : ∀ v ∈ alternatives values, ∃ e, v.leaf c = .ok e ∧ ∀ σ : Assignment,
      e.eval σ = Relation.eq.test c.affinity (σ c) .none v.cell := by
    intro v hv
    obtain ⟨hmem, hnull⟩ := mem_alternatives.mp hv
    obtain ⟨s, rfl⟩ := hvalues v hmem
    exact leaf_of_scalar hnull
  obtain ⟨es, hes⟩ := Outcome.exists_mapM_iff.mpr fun v hv =>
    (hleaf v hv).imp fun _ he => he.1
  refine ⟨es, hes, fun σ => ?_⟩
  have hall := Outcome.mapM_eq_ok.mp hes
  constructor
  · rintro ⟨e, he, htrue⟩
    obtain ⟨v, hv, hve⟩ := Outcome.exists_of_mem_mapM hes he
    obtain ⟨e', he', heval⟩ := hleaf v hv
    obtain rfl := Except.ok.inj (he'.symm.trans hve)
    exact ⟨v, hv, (heval σ).symm.trans htrue⟩
  · rintro ⟨v, hv, htest⟩
    obtain ⟨e, he, hve⟩ := Outcome.exists_of_mem_left hall hv
    obtain ⟨e', he', heval⟩ := hleaf v hv
    obtain rfl := Except.ok.inj (he'.symm.trans hve)
    exact ⟨_, he, (heval σ).trans htest⟩

/-- Denying the condition for a list that can be passed leaves the rows that denying the conditions
for its alternatives leaves. -/
theorem exists_denied {es : List Expr} (hes : (alternatives values).mapM (leaf c) = .ok es)
    (heval : ∀ σ : Assignment, (Expr.member false c items).eval σ = .yes ↔
      ∃ part ∈ es, part.eval σ = .yes) {p : Expr} (hp : p.IsCondition) :
    ∃ p₁ p₂, p.override false (some (.member false c items)) = .ok p₁ ∧
      es.foldlM (fun acc part => acc.override false (some part)) p = .ok p₂ ∧
      ∀ σ : Assignment, p₁.eval σ = .yes ↔ p₂.eval σ = .yes := by
  have hconditions : ∀ part ∈ es, part.IsCondition := by
    intro part hpart
    obtain ⟨v, _, hv⟩ := Outcome.exists_of_mem_mapM hes hpart
    exact (leaf_keepsTo hv).isCondition
  have hmember : ∀ part ∈ [Expr.member false c items], part.IsCondition :=
    List.forall_mem_singleton.mpr trivial
  obtain ⟨p₁, hp₁, htruth₁⟩ := Sql.Expr.exists_denyAll hp hmember
  obtain ⟨p₂, hp₂, htruth₂⟩ := Sql.Expr.exists_denyAll hp hconditions
  refine ⟨p₁, p₂, by simpa using hp₁, hp₂, fun σ => ?_⟩
  rw [htruth₁, htruth₂, List.forall_mem_singleton, Ne, heval]
  simp only [not_exists, not_and, ne_eq]

/-- A statement in whose filter a list of scalars is looked up cannot be run if the list cannot be
passed. -/
theorem not_run_of_occurs (hitems : ∀ item ∈ items, ∃ s : Scalar, item = .scalar s)
    (hnone : ∀ values, c.memberValues items ≠ .ok values) {s : Select} {p : Expr}
    (hfilter : s.filter = some p) (hoccurs : (Expr.member false c items).Occurs p)
    (db : Database) (rows : List (List Scalar)) : s.run db ≠ .ok rows := by
  intro hrun
  have hpart : items.any isPart = false := by
    rw [List.any_eq_false]
    intro item hitem
    obtain ⟨s, rfl⟩ := hitems item hitem
    exact Bool.false_ne_true
  have hwritten : Piece.members c false items ∈ p.template s.tables := by
    refine hoccurs.template_subset s.tables ?_
    simp [Expr.template, hpart]
  have hpiece : Piece.members c false items ∈ s.template := by
    have hne : (p.template s.tables).isEmpty = false := by
      simpa using List.ne_nil_of_mem hwritten
    simp [Select.template, Sql.selectTemplate, Select.filterTemplate, hfilter, hne, hwritten]
  obtain ⟨values, hvalues⟩ := Select.exists_memberValues hrun hpiece
  exact hnone values hvalues

/-- The condition for a collection of scalars is true exactly where the condition for one of its
alternatives is, and denying it leaves the rows that denying those one by one leaves. The
alternatives are the values passed for the elements, other than null. These are the elements
themselves if all are of the type of the list or if that is the type of integers or of texts. A
statement with a condition for a collection that cannot be passed cannot be run. -/
theorem leaf_alternatives (c : Column) (kind : CollectionKind) {items : List Value}
    (hitems : ∀ item ∈ items, ∃ s : Scalar, item = .scalar s) :
    ∃ e, (Value.collection kind items).leaf c = .ok e ∧
      (∀ values, c.memberValues items = .ok values →
        ∃ es, (alternatives values).mapM (leaf c) = .ok es ∧
          (∀ σ : Assignment, e.eval σ = .yes ↔ ∃ part ∈ es, part.eval σ = .yes) ∧
          ∀ p : Expr, p.IsCondition → ∃ p₁ p₂, p.override false (some e) = .ok p₁ ∧
            es.foldlM (fun acc part => acc.override false (some part)) p = .ok p₂ ∧
            ∀ σ : Assignment, p₁.eval σ = .yes ↔ p₂.eval σ = .yes) ∧
      ((∀ item ∈ items, item.isNull = true ∨ item.type? = some (c.memberType items) ∨
          c.memberType items = .integer ∨ c.memberType items = .text) →
        ∀ values, c.memberValues items = .ok values ↔
          values = items ∧ ∀ n : Int, .int n ∈ items → Scalar.fits n = true) ∧
      ((∀ values, c.memberValues items ≠ .ok values) →
        (∀ (s : Select) (p : Expr), s.filter = some p → e.Occurs p →
          ∀ (db : Database) (rows : List (List Scalar)), s.run db ≠ .ok rows) ∧
        ∀ p p₁ : Expr, p.IsCondition → p.override false (some e) = .ok p₁ →
          p = .const false ∨ e.Occurs p₁) := by
  refine ⟨.member false c items, Operator.isIn.membership_of_scalars false hitems,
    fun values hvalues => ?_, fun htypes values => memberValues_of_type? hitems htypes,
    fun hnone => ⟨fun s p hfilter hoccurs => not_run_of_occurs hitems hnone hfilter hoccurs,
      fun p p₁ hp hp₁ => Expr.occurs_override hp trivial rfl hp₁⟩⟩
  have hscalars : ∀ v ∈ values, ∃ s : Scalar, v = .scalar s := by
    intro v hv
    obtain ⟨item, hitem, hconvert⟩ :=
      Outcome.exists_of_mem_right (Sql.memberValues_eq_ok.mp hvalues).1 hv
    obtain ⟨s, rfl⟩ := hitems item hitem
    exact ScalarType.exists_scalar_of_convert? hconvert
  obtain ⟨es, hes, hparts⟩ := exists_leaves c hscalars
  have heval : ∀ σ : Assignment, (Expr.member false c items).eval σ = .yes ↔
      ∃ part ∈ es, part.eval σ = .yes :=
    fun σ => (eval_member_eq_yes hvalues).trans (hparts σ).symm
  exact ⟨es, hes, heval, fun p hp => exists_denied hes heval hp⟩

theorem leaf_alternatives_manager : ∃ e es,
    (Value.collection .list [.null, .int 2, .int 7]).leaf ⟨"users", "manager_id", .integer⟩ =
        .ok e ∧
      [Value.int 2, .int 7].mapM (leaf ⟨"users", "manager_id", .integer⟩) = .ok es ∧
      ∀ σ : Assignment, e.eval σ = .yes ↔ ∃ part ∈ es, part.eval σ = .yes := by
  have hitems : ∀ item ∈ [Value.null, .int 2, .int 7], ∃ s : Scalar, item = .scalar s := by
    intro item hitem
    simp only [List.mem_cons, List.not_mem_nil, or_false] at hitem
    rcases hitem with rfl | rfl | rfl <;> exact ⟨_, rfl⟩
  obtain ⟨e, he, hpassed, hsame, _⟩ :=
    leaf_alternatives ⟨"users", "manager_id", .integer⟩ .list hitems
  have hvalues := (hsame (fun _ _ => Or.inr (Or.inr (Or.inl rfl))) _).mpr
    ⟨rfl, fun n hn => by simp at hn; rcases hn with rfl | rfl <;> decide⟩
  obtain ⟨es, hes, heval, _⟩ := hpassed _ hvalues
  exact ⟨e, es, he, hes, heval⟩

/-- The posts whose number is true or two are readable. -/
def mixedReading : Query := Sample.reading "Post" [Sample.readRule true "Post"
  (.literal "id" (.collection .list [.bool true, .int 2]) .nil)]

/-- A missing value is not among the elements of a list, though null is. A number behind a truth
value cannot be read as one, so that the statement fails, also for a row with that number. -/
theorem elements_not_alternatives :
    (∃ e e', (Value.collection .list [.null]).leaf ⟨"users", "manager_id", .integer⟩ = .ok e ∧
      Value.null.leaf ⟨"users", "manager_id", .integer⟩ = .ok e' ∧
      e.eval (fun _ => .null) = .unknown ∧ e'.eval (fun _ => .null) = .yes) ∧
    ∃ e s p, (Value.int 2).leaf ⟨"posts", "id", .integer⟩ = .ok e ∧
      e.eval (fun _ => .int 2) = .yes ∧ mixedReading.records = .ok ⟨.select s, p, none⟩ ∧
      s.run Sample.database = .error (.parameter (.unconvertible .truth)) :=
  ⟨⟨_, _, rfl, rfl, rfl, rfl⟩, _, _, _, rfl, rfl, rfl, rfl⟩

end Value

end RowPolicy
