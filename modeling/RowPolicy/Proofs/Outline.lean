import RowPolicy.Proofs.Outcome
import RowPolicy.Query.Records

/-!
# Values without their content

The outline of a value has the empty literal of the same type in place of each literal: of each
text, byte string, integer and double. Null and the truth values are kept, and so are the parts of
a statement, the names of a mapping and the number of elements. What is built from a value as a
condition has the same outline as what is built from its outline.
-/

namespace RowPolicy

open Sql (Column Expr Operand)

/-! ## What is seen of a result -/

namespace Outcome

variable {ε ε' α β γ ν : Type} {σ : ε → ε'} {g : α → β} {k : γ → ν}

/-- What is seen of a result if errors and values are not seen themselves. -/
def view (σ : ε → ε') (g : α → β) : Except ε α → Except ε' β
  | .error e => .error (σ e)
  | .ok a => .ok (g a)

/-- Two results look the same if both are errors that do or both are values that do. -/
theorem view_cases {x y : Except ε α} (h : view σ g x = view σ g y) :
    (∃ e e', x = .error e ∧ y = .error e' ∧ σ e = σ e') ∨
      ∃ a b, x = .ok a ∧ y = .ok b ∧ g a = g b := by
  cases x with
  | error e =>
      cases y with
      | error e' => exact Or.inl ⟨e, e', rfl, rfl, Except.error.inj h⟩
      | ok b => cases h
  | ok a =>
      cases y with
      | error e' => cases h
      | ok b => exact Or.inr ⟨a, b, rfl, rfl, Except.ok.inj h⟩

/-- Results look the same if their first steps do and the others go on alike. -/
theorem view_bind {x y : Except ε α} {f f' : α → Except ε γ} (h : view σ g x = view σ g y)
    (hf : ∀ a b, g a = g b → view σ k (f a) = view σ k (f' b)) :
    view σ k (x >>= f) = view σ k (y >>= f') := by
  obtain ⟨e, e', rfl, rfl, he⟩ | ⟨a, b, rfl, rfl, hab⟩ := view_cases h
  · exact congrArg Except.error he
  · exact hf a b hab

theorem view_bind_same (x : Except ε α) {f f' : α → Except ε γ}
    (hf : ∀ a, view σ k (f a) = view σ k (f' a)) : view σ k (x >>= f) = view σ k (x >>= f') := by
  cases x with
  | error e => rfl
  | ok a => exact hf a

theorem view_map {x y : Except ε α} {f f' : α → γ} (h : view σ g x = view σ g y)
    (hf : ∀ a b, g a = g b → k (f a) = k (f' b)) : view σ k (f <$> x) = view σ k (f' <$> y) := by
  obtain ⟨e, e', rfl, rfl, he⟩ | ⟨a, b, rfl, rfl, hab⟩ := view_cases h
  · exact congrArg Except.error he
  · exact congrArg Except.ok (hf a b hab)

/-- Going through lists that look the same gives lists that look the same. -/
theorem view_mapM {f f' : γ → Except ε α} (hf : ∀ c d, k c = k d → view σ g (f c) = view σ g (f' d))
    {cs ds : List γ} (h : cs.map k = ds.map k) :
    view σ (List.map g) (cs.mapM f) = view σ (List.map g) (ds.mapM f') := by
  induction cs generalizing ds with
  | nil =>
      obtain rfl := List.map_eq_nil_iff.mp h.symm
      rfl
  | cons c cs ih =>
      cases ds with
      | nil => cases h
      | cons d ds =>
          obtain ⟨hhead, htail⟩ := List.cons.inj h
          rw [List.mapM_cons, List.mapM_cons]
          refine view_bind (hf c d hhead) fun a b hab => view_bind (ih htail) fun as bs habs => ?_
          exact congrArg Except.ok (List.cons_eq_cons.mpr ⟨hab, habs⟩)

theorem view_foldlM {f f' : α → γ → Except ε α}
    (hf : ∀ a b c d, g a = g b → k c = k d → view σ g (f a c) = view σ g (f' b d))
    {cs ds : List γ} (h : cs.map k = ds.map k) {a b : α} (hab : g a = g b) :
    view σ g (cs.foldlM f a) = view σ g (ds.foldlM f' b) := by
  induction cs generalizing ds a b with
  | nil =>
      obtain rfl := List.map_eq_nil_iff.mp h.symm
      exact congrArg Except.ok hab
  | cons c cs ih =>
      cases ds with
      | nil => cases h
      | cons d ds =>
          obtain ⟨hhead, htail⟩ := List.cons.inj h
          rw [List.foldlM_cons, List.foldlM_cons]
          exact view_bind (hf a b c d hab hhead) fun a' b' hab' => ih htail hab'

end Outcome

/-- Going through lists that look the same leads from what looks the same to what does. -/
theorem foldl_congr_map {α β γ ν : Type} {g : α → β} {k : γ → ν} {f : α → γ → α}
    (hf : ∀ a b c d, g a = g b → k c = k d → g (f a c) = g (f b d))
    {cs ds : List γ} (h : cs.map k = ds.map k) {a b : α} (hab : g a = g b) :
    g (cs.foldl f a) = g (ds.foldl f b) := by
  induction cs generalizing ds a b with
  | nil =>
      obtain rfl := List.map_eq_nil_iff.mp h.symm
      exact hab
  | cons c cs ih =>
      cases ds with
      | nil => cases h
      | cons d ds =>
          obtain ⟨hhead, htail⟩ := List.cons.inj h
          exact ih htail (hf a b c d hab hhead)

section Choose

variable {α : Type} {g : α → α} {p : α → Bool} (hp : ∀ a, p (g a) = p a) {as bs : List α}
  (h : as.map g = bs.map g)
include hp h

/-- What looks only at looks chooses what looks the same. -/
theorem map_filter_congr : (as.filter p).map g = (bs.filter p).map g := by
  have hfilter : ∀ as : List α, (as.filter p).map g = (as.map g).filter p := by
    intro as
    rw [List.filter_map]
    exact congrArg _ (List.filter_congr fun a _ => (hp a).symm)
  rw [hfilter, h, ← hfilter]

theorem any_congr_map : as.any p = bs.any p := by
  have hany : ∀ as : List α, (as.map g).any p = as.any p := by
    intro as
    rw [List.any_map]
    exact congrArg as.any (funext hp)
  rw [← hany, h, hany]

theorem all_congr_map : as.all p = bs.all p := by
  have hall : ∀ as : List α, (as.map g).all p = as.all p := by
    intro as
    rw [List.all_map]
    exact congrArg as.all (funext hp)
  rw [← hall, h, hall]

end Choose

/-! ## Outlines of values -/

/-- The empty scalar of the same type; null and the truth values are kept. -/
def Scalar.outline : Scalar → Scalar
  | int _ => int 0
  | float _ => float (.ofInt 0)
  | str _ => str ""
  | bytes _ => bytes []
  | cell => cell

/-- Whether a value is a literal that has elements, a text or a byte string. -/
def Value.isText : Value → Bool
  | str _ | bytes _ => true
  | _ => false

mutual

/-- A value with the empty literal of the same type in place of each literal. A text whose
elements are tested one by one is kept, because there are as many conditions as elements. -/
def Value.outline : Value → Value
  | .scalar s => .scalar s.outline
  | .collection kind items => .collection kind (Value.outlineAll items)
  | .map entries => .map (Value.outlineEntries entries)
  | .comparison test operand =>
      .comparison test
        (if test.quantifier != .plain && operand.isText then operand else operand.outline)
  | .expr e => .expr e
  | .rows entity filter => .rows entity filter
  | .resolved kind body => .resolved kind body

/-- The outlines of some values. -/
def Value.outlineAll : List Value → List Value
  | [] => []
  | v :: rest => v.outline :: Value.outlineAll rest

/-- The entries of a mapping with the outlines of their values. -/
def Value.outlineEntries : List (String × Value) → List (String × Value)
  | [] => []
  | (key, v) :: rest => (key, v.outline) :: Value.outlineEntries rest

end

namespace Value

@[simp] theorem outlineAll_eq_map (items : List Value) : outlineAll items = items.map outline := by
  induction items with
  | nil => rfl
  | cons v rest ih => rw [outlineAll, ih, List.map_cons]

theorem outlineEntries_eq_map (entries : List (String × Value)) :
    outlineEntries entries = entries.map fun entry => (entry.1, entry.2.outline) := by
  induction entries with
  | nil => rfl
  | cons entry rest ih => rw [outlineEntries, ih, List.map_cons]

@[simp] theorem isText_outline (v : Value) : v.outline.isText = v.isText := by
  cases v with
  | scalar s => cases s <;> rfl
  | _ => rfl

mutual

/-- An outline is its own outline. -/
theorem outline_outline : ∀ v : Value, v.outline.outline = v.outline
  | .scalar s => by cases s <;> rfl
  | .collection kind items => by
      rw [outline, outline, outlineAll_outlineAll items]
  | .map entries => by
      rw [outline, outline, outlineEntries_outlineEntries entries]
  | .comparison test operand => by
      rw [outline]
      split
      next hkept => rw [outline, if_pos hkept]
      next hkept => rw [outline, isText_outline, if_neg hkept, outline_outline operand]
  | .expr _ | .rows _ _ | .resolved _ _ => rfl

theorem outlineAll_outlineAll : ∀ items : List Value,
    outlineAll (outlineAll items) = outlineAll items
  | [] => rfl
  | v :: rest => by
      rw [outlineAll, outlineAll, outline_outline v, outlineAll_outlineAll rest]

theorem outlineEntries_outlineEntries : ∀ entries : List (String × Value),
    outlineEntries (outlineEntries entries) = outlineEntries entries
  | [] => rfl
  | (_, v) :: rest => by
      rw [outlineEntries, outlineEntries, outline_outline v, outlineEntries_outlineEntries rest]

end

theorem outline_comp_outline : outline ∘ outline = outline := funext outline_outline

@[simp] theorem isPart_outline (v : Value) : v.outline.isPart = v.isPart := by
  cases v <;> rfl

@[simp] theorem isWhole_outline (v : Value) : v.outline.isWhole = v.isWhole := by
  cases v <;> rfl

@[simp] theorem isConstant_outline (v : Value) : v.outline.isConstant = v.isConstant := by
  cases v with
  | scalar s => cases s <;> rfl
  | _ => rfl

mutual

theorem isKey_outline : ∀ v : Value, v.outline.isKey = v.isKey
  | .scalar _ | .expr _ | .rows _ _ | .resolved _ _ | .map _ => rfl
  | .collection kind items => by
      cases kind
      case list | set => rfl
      all_goals
        rw [outline, isKey, isKey]
        exact areKeys_outlineAll items
  | .comparison test operand => by
      rw [outline, isKey, isKey]
      split
      next => rfl
      next => exact isKey_outline operand

theorem areKeys_outlineAll : ∀ items : List Value,
    isKey.areKeys (outlineAll items) = isKey.areKeys items
  | [] => rfl
  | v :: rest => by
      rw [outlineAll, isKey.areKeys, isKey.areKeys, isKey_outline v, areKeys_outlineAll rest]

end

end Value

/-! ## Outlines of expressions -/

namespace Sql.Expr

/-- An expression with the outlines of the values in it. A list of values that has no part of a
statement in it stands in one place, so nothing of it is kept. -/
def outline : Expr → Expr
  | compare r c (.value v) => compare r c (.value v.outline)
  | like negated c pattern => like negated c pattern.outline
  | member negated c values =>
      member negated c (if values.any Value.isPart then values.map Value.outline else [])
  | isNotTrue e => isNotTrue e.outline
  | and l r => and l.outline r.outline
  | or l r => or l.outline r.outline
  | e => e

@[simp] theorem constant?_outline (e : Expr) : e.outline.constant? = e.constant? := by
  unfold outline
  split <;> rfl

@[simp] theorem isBlank_outline (unit : Bool) (e : Expr) :
    e.outline.isBlank unit = e.isBlank unit := by
  unfold outline
  split <;> rfl

theorem negate?_outline (e : Expr) : e.outline.negate? = e.negate?.map outline := by
  cases e with
  | compare r c rhs => cases rhs <;> rfl
  | _ => rfl

section Combine

variable {unit : Bool} {link : Expr → Expr → Expr}
  (hlink : ∀ l r, (link l r).outline = link l.outline r.outline)
include hlink

theorem linked_outline (parts : List Expr) :
    (linked unit link parts).outline = linked unit link (parts.map outline) := by
  have hfold : ∀ (first : Expr) (rest : List Expr), (rest.foldl link first).outline =
      (rest.map outline).foldl link first.outline := by
    intro first rest
    induction rest generalizing first with
    | nil => rfl
    | cons next rest ih => rw [List.foldl_cons, ih, hlink, List.map_cons, List.foldl_cons]
  have hfilter : (parts.map outline).filter (fun e => !e.isBlank unit) =
      (parts.filter fun e => !e.isBlank unit).map outline := by
    simp [List.filter_map, Function.comp_def]
  unfold linked
  rw [hfilter]
  generalize parts.filter (fun e => !e.isBlank unit) = left
  match left with
  | [] => rfl
  | [only] => exact hlink only (blank unit)
  | first :: second :: rest => exact hfold first (second :: rest)

/-- Combining expressions does not depend on the content of the values in them. -/
theorem combine_outline (parts : List Expr) :
    (combine unit link parts).outline = combine unit link (parts.map outline) := by
  have hfilter : (parts.map outline).filter (fun e => e.constant? != some unit) =
      (parts.filter fun e => e.constant? != some unit).map outline := by
    simp [List.filter_map, Function.comp_def]
  unfold combine
  rw [hfilter, List.isEmpty_map, List.any_map]
  simp only [Function.comp_def, constant?_outline]
  split
  next => rfl
  next =>
    split
    next => rfl
    next =>
      generalize parts.filter (fun e => e.constant? != some unit) = left
      match left with
      | [] => rfl
      | [only] => rfl
      | first :: second :: rest => exact linked_outline hlink (first :: second :: rest)

end Combine

theorem conjunction_outline (parts : List Expr) :
    (conjunction parts).outline = conjunction (parts.map outline) :=
  combine_outline (fun _ _ => by rw [outline]) parts

theorem disjunction_outline (parts : List Expr) :
    (disjunction parts).outline = disjunction (parts.map outline) :=
  combine_outline (fun _ _ => by rw [outline]) parts

end Sql.Expr

/-! ## Comparisons -/

open Outcome (view view_bind view_map view_mapM)

namespace Value

/-- The outlines of the elements of a value, unless it is a text, are those of the elements of its
outline. -/
theorem operands_outline {v : Value} (h : v.isText = false) :
    view id (List.map outline) v.operands = view id (List.map outline) v.outline.operands := by
  cases v with
  | scalar s => cases s <;> first | rfl | cases h
  | collection kind items =>
      have hitems : outline (.collection kind items) = .collection kind (items.map outline) := by
        rw [outline, outlineAll_eq_map]
      rw [hitems]
      refine congrArg Except.ok ?_
      rw [List.map_map, outline_comp_outline]
  | map entries =>
      have hkeys : (outlineEntries entries).map (fun entry => str entry.1) =
          entries.map fun entry => str entry.1 := by
        rw [outlineEntries_eq_map, List.map_map]
        rfl
      change _ = view id _ (.ok ((outlineEntries entries).map fun entry => str entry.1))
      rw [hkeys]
      rfl
  | expr e => rfl
  | comparison test operand | rows entity filter | resolved kind body => rfl

/-- No element of a text is a part of a statement. -/
theorem operands_of_isText {v : Value} (h : v.isText = true) :
    ∃ items, v.operands = .ok items ∧ ∀ item ∈ items, item.isPart = false := by
  cases v with
  | scalar s =>
      cases s with
      | str s => exact ⟨_, rfl, by simp [isPart]⟩
      | bytes data => exact ⟨_, rfl, by simp [isPart]⟩
      | _ => cases h
  | _ => cases h

end Value

namespace Operator

variable {op : Operator} {c : Column} {v w : Value}

theorem equality_outline (negated : Bool) (c : Column) (v : Value) :
    (equality negated c v).outline = equality negated c v.outline := by
  cases v with
  | scalar s => cases s <;> rfl
  | expr e => cases e <;> rfl
  | _ => rfl

theorem ordering_outline (r : Sql.Relation) :
    view id Expr.outline (op.ordering r c v) =
      view id Expr.outline (op.ordering r c v.outline) := by
  unfold ordering
  rw [Value.isConstant_outline]
  split
  next => rfl
  next =>
    refine congrArg Except.ok ?_
    rw [Expr.outline, Expr.outline, Value.outline_outline]

theorem pattern_outline (negated : Bool) : view id Expr.outline (op.pattern negated c v) =
    view id Expr.outline (op.pattern negated c v.outline) := by
  unfold pattern
  rw [Value.isConstant_outline]
  split
  next => rfl
  next =>
    refine congrArg Except.ok ?_
    rw [Expr.outline, Expr.outline, Value.outline_outline]

/-- Membership in lists with the same outlines has the same outline. -/
theorem membership_congr (negated : Bool) {values values' : List Value}
    (h : values.map Value.outline = values'.map Value.outline) :
    view id Expr.outline (op.membership negated c values) =
      view id Expr.outline (op.membership negated c values') := by
  have hwhole : values.any Value.isWhole = values'.any Value.isWhole :=
    any_congr_map Value.isWhole_outline h
  have hpart : values.any Value.isPart = values'.any Value.isPart :=
    any_congr_map Value.isPart_outline h
  have hkey : values.all Value.isKey = values'.all Value.isKey :=
    all_congr_map Value.isKey_outline h
  unfold membership
  rw [hwhole, hpart, hkey]
  split
  next => rfl
  next =>
    split
    next => rfl
    next =>
      refine congrArg Except.ok ?_
      rw [Expr.outline, Expr.outline, hpart, h]

theorem membership_of_isPart {values : List Value} (negated : Bool)
    (h : ∀ v ∈ values, v.isPart = false) : view id Expr.outline (op.membership negated c values) =
      .ok (.member negated c []) := by
  have hpart : values.any Value.isPart = false := by
    rw [List.any_eq_false]
    exact fun v hv => by simp [h v hv]
  have hwhole : values.any Value.isWhole = false := by
    rw [List.any_eq_false]
    intro v hv hwhole
    have hnot := h v hv
    cases v <;> simp_all [Value.isWhole, Value.isPart]
  simp [membership, hpart, hwhole, view, Expr.outline]

/-- Membership in the elements of a value has the outline of that in the elements of its outline. -/
theorem membership_outline (negated : Bool) (v : Value) :
    view id Expr.outline (v.operands >>= op.membership negated c) =
      view id Expr.outline (v.outline.operands >>= op.membership negated c) := by
  cases htext : v.isText with
  | false =>
      exact view_bind (Value.operands_outline htext) fun _ _ h => membership_congr negated h
  | true =>
      -- the elements themselves are not seen, and there is no part of a statement among them
      obtain ⟨items, hitems, hparts⟩ := Value.operands_of_isText htext
      obtain ⟨items', hitems', hparts'⟩ :=
        Value.operands_of_isText ((Value.isText_outline v).trans htext)
      rw [hitems, hitems']
      exact (membership_of_isPart negated hparts).trans (membership_of_isPart negated hparts').symm

/-- A condition with an operator has the outline of that with the outline of the operand. -/
theorem expr_outline (op : Operator) (c : Column) (v : Value) :
    view id Expr.outline (op.expr c v) = view id Expr.outline (op.expr c v.outline) := by
  have hequality : ∀ negated, view id Expr.outline (.ok (equality negated c v)) =
      view id Expr.outline (.ok (equality negated c v.outline) : Except FilterError Expr) := by
    intro negated
    refine congrArg Except.ok ?_
    rw [equality_outline, equality_outline, Value.outline_outline]
  cases op with
  | eq => exact hequality false
  | notEq => exact hequality true
  | isIn => exact membership_outline false v
  | notIn => exact membership_outline true v
  | lt => exact ordering_outline .lt
  | ltEq => exact ordering_outline .le
  | gt => exact ordering_outline .gt
  | gtEq => exact ordering_outline .ge
  | like => exact pattern_outline false
  | notLike => exact pattern_outline true

theorem expr_congr (op : Operator) (c : Column) {v w : Value} (h : v.outline = w.outline) :
    view id Expr.outline (op.expr c v) = view id Expr.outline (op.expr c w) := by
  rw [expr_outline, h, ← expr_outline]

end Operator

/-- A comparison has the outline of that with the outline of its operand, if its elements are not
tested one by one or it is no text. -/
theorem Test.expr_outline (t : Test) (c : Column) (operand : Value) :
    view id Expr.outline (t.expr c operand) = view id Expr.outline (t.expr c
      (if t.quantifier != .plain && operand.isText then operand else operand.outline)) := by
  have hparts : operand.isText = false → ∀ unit : List Expr → Expr,
      (∀ parts parts' : List Expr, parts.map Expr.outline = parts'.map Expr.outline →
        (unit parts).outline = (unit parts').outline) →
      view id Expr.outline (do
        let parts ← (← operand.operands).mapM (t.operator.expr c)
        return unit parts) =
      view id Expr.outline (do
        let parts ← (← operand.outline.operands).mapM (t.operator.expr c)
        return unit parts) := by
    intro htext unit hunit
    refine view_bind (Value.operands_outline htext) fun items items' hitems => ?_
    refine view_bind (view_mapM (fun _ _ h => t.operator.expr_congr c h) hitems) ?_
    exact fun parts parts' h => congrArg Except.ok (hunit parts parts' h)
  obtain ⟨operator, quantifier⟩ := t
  cases quantifier with
  | plain => exact operator.expr_outline c operand
  | any =>
      cases htext : operand.isText with
      | true => rfl
      | false =>
          refine hparts htext (fun parts => .disjunction (.const false :: parts)) ?_
          intro parts parts' h
          rw [Expr.disjunction_outline, Expr.disjunction_outline, List.map_cons, h, List.map_cons]
  | all =>
      cases htext : operand.isText with
      | true => rfl
      | false =>
          refine hparts htext (fun parts => .conjunction (.const true :: parts)) ?_
          intro parts parts' h
          rw [Expr.conjunction_outline, Expr.conjunction_outline, List.map_cons, h, List.map_cons]

/-- What a column is compared with has an outline that is known from the outline of the value. -/
theorem Value.leaf_congr {v w : Value} (c : Column) (h : v.outline = w.outline) :
    view id Expr.outline (v.leaf c) = view id Expr.outline (w.leaf c) := by
  have hleaf : ∀ v : Value,
      view id Expr.outline (v.leaf c) = view id Expr.outline (v.outline.leaf c) := by
    intro v
    have hequality : ∀ w : Value,
        view id Expr.outline (.ok (Operator.equality false c w) : Except FilterError Expr) =
          view id Expr.outline (.ok (Operator.equality false c w.outline)) :=
      fun w => Operator.eq.expr_outline c w
    cases v with
    | comparison test operand => exact test.expr_outline c operand
    | collection kind items =>
        refine Operator.membership_congr false ?_
        rw [outlineAll_eq_map, List.map_map, outline_comp_outline]
    | scalar s => exact hequality (.scalar s)
    | map entries => exact hequality (.map entries)
    | expr e => rfl
    | rows entity filter => rfl
    | resolved kind body => rfl
  rw [hleaf, h, ← hleaf]

end RowPolicy
