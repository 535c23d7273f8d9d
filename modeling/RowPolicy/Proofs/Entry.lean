import RowPolicy.Filter.Flatten
import RowPolicy.Proofs.Combination
import RowPolicy.Proofs.Outcome

/-!
# The conditions of single entries

An entry of a mapping compares one column with a value. Unless the value holds parts of
a statement itself, the comparison mentions that column's table only and is plain; otherwise it
mentions the tables that the value mentions as well. All entries of a mapping together are true if
each of them is.
-/

namespace RowPolicy

open Sql (Expr Column Assignment)
open Sql.Expr (Kept)

/-- Whether a value is data all through, with no part of a statement in it. -/
def Value.isData : Value → Bool
  | .scalar _ => true
  | .collection _ items => areData items
  | .map entries => hasData entries
  | .comparison _ operand => isData operand
  | .expr _ | .rows _ _ | .resolved _ _ => false
where
  /-- Whether all of the values are data. -/
  areData : List Value → Bool
    | [] => true
    | item :: rest => isData item && areData rest
  /-- Whether the values of all entries are data. -/
  hasData : List (String × Value) → Bool
    | [] => true
    | (_, v) :: rest => isData v && hasData rest

/-- The tables whose columns occur in the expressions of which a value consists. A text given in
place of an expression mentions none, and neither do selected rows, which come from tables of their
own. -/
def Value.mentioned : Value → List String
  | .expr e => e.tables
  | .collection _ items => mentionedByAll items
  | .comparison _ operand => mentioned operand
  | .scalar _ | .map _ | .rows _ _ | .resolved _ _ => []
where
  /-- The tables that some values mention. -/
  mentionedByAll : List Value → List String
    | [] => []
    | item :: rest => mentioned item ++ mentionedByAll rest

/-- A condition that can be combined with others and is plain if `data` holds. It mentions columns
of its own tables and of some others, and as far as it is plain, of its own ones only. -/
structure Sql.Expr.KeepsTo (own : List String) (data : Prop) (others : List String) (e : Expr) :
    Prop where
  isCondition : e.IsCondition
  isPlain : data → e.isPlain = true
  tables : e.isPlain = true → ∀ t ∈ e.tables, t ∈ own
  mentioned : ∀ t ∈ e.tables, t ∈ own ++ others

namespace Sql.Expr

variable {own own' : List String} {data data' : Prop} {others others' : List String} {e : Expr}

theorem KeepsTo.of_data (h : e.KeepsTo own data others) (hdata : data) :
    (e.IsCondition ∧ e.isPlain = true) ∧ ∀ t ∈ e.tables, t ∈ own :=
  ⟨⟨h.isCondition, h.isPlain hdata⟩, h.tables (h.isPlain hdata)⟩

theorem KeepsTo.mono (h : e.KeepsTo own data others) (hown : own ⊆ own') (hdata : data' → data)
    (hothers : others ⊆ others') : e.KeepsTo own' data' others' where
  isCondition := h.isCondition
  isPlain hd := h.isPlain (hdata hd)
  tables hplain t ht := hown (h.tables hplain t ht)
  mentioned t ht := (List.mem_append.mp (h.mentioned t ht)).elim
    (fun ht => List.mem_append_left _ (hown ht)) fun ht => List.mem_append_right _ (hothers ht)

/-- A condition that mentions no others. -/
theorem keepsTo_of_tables (hcondition : e.IsCondition) (hplain : data → e.isPlain = true)
    (htables : ∀ t ∈ e.tables, t ∈ own) : e.KeepsTo own data others :=
  ⟨hcondition, hplain, fun _ => htables, fun t ht => List.mem_append_left _ (htables t ht)⟩

/-- A condition whose tables, as far as it is plain, all have a property. -/
theorem kept_plain_tables (Q : String → Prop) :
    Kept fun e => e.IsCondition ∧ (e.isPlain = true → ∀ t ∈ e.tables, Q t) where
  const _ := ⟨trivial, by simp [Expr.tables]⟩
  settled _ := ⟨trivial, by simp [Expr.tables]⟩
  isNotTrue h := ⟨trivial, by simpa [Expr.isPlain, Expr.tables] using h.2⟩
  and hl hr := ⟨trivial, by
    simp only [isPlain, Expr.tables, Bool.and_eq_true, List.forall_mem_append]
    exact fun hplain => ⟨hl.2 hplain.1, hr.2 hplain.2⟩⟩
  or hl hr := ⟨trivial, by
    simp only [isPlain, Expr.tables, Bool.and_eq_true, List.forall_mem_append]
    exact fun hplain => ⟨hl.2 hplain.1, hr.2 hplain.2⟩⟩
  isCondition h := h.1

theorem kept_keepsTo (own : List String) (data : Prop) (others : List String) :
    Kept (KeepsTo own data others) where
  const _ := keepsTo_of_tables trivial (fun _ => rfl) (by simp [Expr.tables])
  settled _ := keepsTo_of_tables trivial (fun _ => rfl) (by simp [Expr.tables])
  isNotTrue h := ⟨trivial, h.isPlain, h.tables, h.mentioned⟩
  and hl hr := ⟨trivial, fun hd => by simp [Expr.isPlain, hl.isPlain hd, hr.isPlain hd],
    ((kept_plain_tables _).and ⟨hl.isCondition, hl.tables⟩ ⟨hr.isCondition, hr.tables⟩).2,
    ((kept_tables kept_isCondition _).and ⟨hl.isCondition, hl.mentioned⟩
      ⟨hr.isCondition, hr.mentioned⟩).2⟩
  or hl hr := ⟨trivial, fun hd => by simp [Expr.isPlain, hl.isPlain hd, hr.isPlain hd],
    ((kept_plain_tables _).or ⟨hl.isCondition, hl.tables⟩ ⟨hr.isCondition, hr.tables⟩).2,
    ((kept_tables kept_isCondition _).or ⟨hl.isCondition, hl.mentioned⟩
      ⟨hr.isCondition, hr.mentioned⟩).2⟩
  isCondition h := h.isCondition

end Sql.Expr

namespace Value

theorem isPart_of_isData {v : Value} (h : v.isData = true) : v.isPart = false := by
  cases v <;> first | rfl | simp [isData] at h

theorem tables_of_isPart {v : Value} (h : v.isPart = false) : v.tables = [] := by
  cases v <;> first | rfl | cases h

theorem isData_of_mem {items : List Value} (h : isData.areData items = true) :
    ∀ v ∈ items, v.isData = true := by
  induction items with
  | nil => intro v hv; cases hv
  | cons item rest ih =>
      simp only [isData.areData, Bool.and_eq_true] at h
      intro v hv
      rcases List.mem_cons.mp hv with rfl | hrest
      · exact h.1
      · exact ih h.2 v hrest

theorem tablesOfAll_eq_nil {items : List Value} (h : ∀ v ∈ items, v.isPart = false) :
    tablesOfAll items = [] := by
  induction items with
  | nil => rfl
  | cons item rest ih =>
      rw [tablesOfAll, tables_of_isPart (h item List.mem_cons_self),
        ih fun v hv => h v (List.mem_cons_of_mem _ hv)]
      rfl

/-- The elements of a value are those of a collection, or scalars. -/
theorem operands_cases {v : Value} {items : List Value} (h : v.operands = .ok items) :
    (∃ kind, v = .collection kind items) ∨ ∀ item ∈ items, ∃ s : Scalar, item = .scalar s := by
  have helements : v.elements? = some items := by
    cases hcase : v.elements? with
    | none => simp [operands, elements, hcase, Except.mapError] at h
    | some found => simpa [operands, elements, hcase, Except.mapError] using h
  unfold elements? at helements
  split at helements
  case h_1 => exact Or.inl ⟨_, by rw [Option.some.inj helements]⟩
  case h_5 => cases helements
  all_goals
    obtain rfl := Option.some.inj helements
    refine Or.inr fun item hitem => ?_
    obtain ⟨_, _, rfl⟩ := List.mem_map.mp hitem
    exact ⟨_, rfl⟩

/-- The elements of data are data. -/
theorem isData_of_mem_operands {v : Value} {items : List Value} (h : v.operands = .ok items)
    (hv : v.isData = true) : ∀ item ∈ items, item.isData = true := by
  rcases operands_cases h with ⟨kind, rfl⟩ | hscalars
  · exact isData_of_mem (by simpa [isData] using hv)
  · intro item hitem
    obtain ⟨s, rfl⟩ := hscalars item hitem
    rfl

theorem tables_subset_mentioned (v : Value) : v.tables ⊆ v.mentioned := by
  cases v with
  | expr e => exact List.Subset.refl _
  | _ => exact List.nil_subset _

theorem mentioned_subset_of_mem {v : Value} {items : List Value} (hv : v ∈ items) :
    v.mentioned ⊆ mentioned.mentionedByAll items := by
  induction items with
  | nil => cases hv
  | cons item rest ih =>
      rcases List.mem_cons.mp hv with rfl | hrest
      · exact List.subset_append_left _ _
      · exact List.Subset.trans (ih hrest) (List.subset_append_right _ _)

theorem tablesOfAll_subset (items : List Value) :
    tablesOfAll items ⊆ mentioned.mentionedByAll items := by
  induction items with
  | nil => exact List.nil_subset _
  | cons item rest ih =>
      exact List.append_subset.mpr
        ⟨List.Subset.trans (tables_subset_mentioned item) (List.subset_append_left _ _),
          List.Subset.trans ih (List.subset_append_right _ _)⟩

/-- The elements of a value mention no other tables than the value itself. -/
theorem mentionedByAll_operands {v : Value} {items : List Value} (h : v.operands = .ok items) :
    mentioned.mentionedByAll items ⊆ v.mentioned := by
  rcases operands_cases h with ⟨kind, rfl⟩ | hscalars
  · exact List.Subset.refl _
  · have hnone : mentioned.mentionedByAll items = [] := by
      clear h
      induction items with
      | nil => rfl
      | cons item rest ih =>
          obtain ⟨⟨s, rfl⟩, hrest⟩ := List.forall_mem_cons.mp hscalars
          exact ih hrest
    simp [hnone]

end Value

namespace Operator

variable {c : Column} {e : Expr}

theorem equality_cases (negated : Bool) (c : Column) (v : Value) :
    equality negated c v = .nullTest negated c ∨
      (∃ r b, equality negated c v = .compare r c (.truth b)) ∨
      ∃ r, equality negated c v = .compare r c (.value v) := by
  unfold equality
  dsimp only
  split
  · exact Or.inl rfl
  · exact Or.inr (Or.inl ⟨_, _, rfl⟩)
  · exact Or.inr (Or.inl ⟨_, _, rfl⟩)
  · exact Or.inr (Or.inr ⟨_, rfl⟩)

theorem compare_keepsTo (r : Sql.Relation) (c : Column) (v : Value) :
    (Expr.compare r c (.value v)).KeepsTo [c.table] (v.isData = true) v.mentioned where
  isCondition := trivial
  isPlain hv := by simp [Expr.isPlain, Value.isPart_of_isData hv]
  tables hplain := by
    have hpart : v.isPart = false := by simpa [Expr.isPlain] using hplain
    simp [Expr.tables, Sql.Operand.tables, Value.tables_of_isPart hpart]
  mentioned := List.cons_subset_cons c.table v.tables_subset_mentioned

theorem equality_keepsTo (negated : Bool) (c : Column) (v : Value) :
    (equality negated c v).KeepsTo [c.table] (v.isData = true) v.mentioned := by
  rcases equality_cases negated c v with heq | ⟨r, b, heq⟩ | ⟨r, heq⟩ <;> rw [heq]
  · exact Expr.keepsTo_of_tables trivial (fun _ => rfl) (by simp [Expr.tables])
  · exact Expr.keepsTo_of_tables trivial (fun _ => rfl) (by simp [Expr.tables, Sql.Operand.tables])
  · exact compare_keepsTo r c v

theorem ordering_keepsTo {op : Operator} {r : Sql.Relation} {v : Value}
    (h : op.ordering r c v = .ok e) : e.KeepsTo [c.table] (v.isData = true) v.mentioned := by
  unfold ordering at h
  split at h
  · cases h
  · exact Except.ok.inj h ▸ compare_keepsTo r c v

theorem pattern_keepsTo {op : Operator} {negated : Bool} {v : Value}
    (h : op.pattern negated c v = .ok e) : e.KeepsTo [c.table] (v.isData = true) v.mentioned := by
  unfold pattern at h
  split at h
  · cases h
  · obtain rfl := Except.ok.inj h
    refine ⟨trivial, fun hv => by simp [Expr.isPlain, Value.isPart_of_isData hv],
      fun hplain => ?_, List.cons_subset_cons c.table v.tables_subset_mentioned⟩
    have hpart : v.isPart = false := by simpa [Expr.isPlain] using hplain
    simp [Expr.tables, Value.tables_of_isPart hpart]

theorem membership_keepsTo {op : Operator} {negated : Bool} {items : List Value}
    (h : op.membership negated c items = .ok e) :
    e.KeepsTo [c.table] (∀ v ∈ items, v.isData = true) (Value.mentioned.mentionedByAll items) := by
  unfold membership at h
  split at h
  · cases h
  split at h
  · cases h
  obtain rfl := Except.ok.inj h
  have hplain : (Expr.member negated c items).isPlain = true ↔ ∀ v ∈ items, v.isPart = false := by
    simp [Expr.isPlain]
  refine ⟨trivial, fun hitems => ?_, fun hmember => ?_,
    List.cons_subset_cons c.table (Value.tablesOfAll_subset items)⟩
  · exact hplain.mpr fun v hv => Value.isPart_of_isData (hitems v hv)
  · simp [Expr.tables, Value.tablesOfAll_eq_nil (hplain.mp hmember)]

/-- A column can be looked up among any scalars. -/
theorem membership_of_scalars {items : List Value} (op : Operator) (negated : Bool)
    (hitems : ∀ item ∈ items, ∃ s : Scalar, item = .scalar s) :
    op.membership negated c items = .ok (.member negated c items) := by
  have hwhole : items.any Value.isWhole = false := by
    rw [List.any_eq_false]
    intro item hitem
    obtain ⟨s, rfl⟩ := hitems item hitem
    exact Bool.false_ne_true
  have hpart : items.any Value.isPart = false := by
    rw [List.any_eq_false]
    intro item hitem
    obtain ⟨s, rfl⟩ := hitems item hitem
    exact Bool.false_ne_true
  simp [membership, hwhole, hpart]

theorem expr_keepsTo {op : Operator} {v : Value} (h : op.expr c v = .ok e) :
    e.KeepsTo [c.table] (v.isData = true) v.mentioned := by
  have hmember : ∀ {op : Operator} {negated : Bool},
      (do op.membership negated c (← v.operands)) = .ok e →
        e.KeepsTo [c.table] (v.isData = true) v.mentioned := by
    intro op negated h
    obtain ⟨items, hitems, h⟩ := Outcome.bind_eq_ok.mp h
    exact (membership_keepsTo h).mono (List.Subset.refl _)
      (Value.isData_of_mem_operands hitems) (Value.mentionedByAll_operands hitems)
  cases op with
  | eq => exact Except.ok.inj h ▸ equality_keepsTo false c v
  | notEq => exact Except.ok.inj h ▸ equality_keepsTo true c v
  | isIn => exact hmember h
  | notIn => exact hmember h
  | lt => exact ordering_keepsTo h
  | ltEq => exact ordering_keepsTo h
  | gt => exact ordering_keepsTo h
  | gtEq => exact ordering_keepsTo h
  | like => exact pattern_keepsTo h
  | notLike => exact pattern_keepsTo h

end Operator

theorem Test.expr_keepsTo {t : Test} {c : Column} {v : Value} {e : Expr}
    (h : t.expr c v = .ok e) : e.KeepsTo [c.table] (v.isData = true) v.mentioned := by
  have hkept := Sql.Expr.kept_keepsTo [c.table] (v.isData = true) v.mentioned
  have hparts : ∀ {items : List Value} {parts : List Expr}, v.operands = .ok items →
      items.mapM (t.operator.expr c) = .ok parts →
        ∀ part ∈ parts, part.KeepsTo [c.table] (v.isData = true) v.mentioned := by
    intro items parts hitems hmap part hpart
    obtain ⟨item, hitem, hpart⟩ := Outcome.exists_of_mem_mapM hmap hpart
    exact (Operator.expr_keepsTo hpart).mono (List.Subset.refl _)
      (fun hv => Value.isData_of_mem_operands hitems hv item hitem)
      (List.Subset.trans (Value.mentioned_subset_of_mem hitem)
        (Value.mentionedByAll_operands hitems))
  unfold expr at h
  split at h
  · exact Operator.expr_keepsTo h
  all_goals
    simp only [Outcome.bind_eq_ok, Outcome.pure_eq_ok] at h
    obtain ⟨items, hitems, parts, hmap, rfl⟩ := h
  · refine hkept.disjunction (by simp) fun part hpart => ?_
    rcases List.mem_cons.mp hpart with rfl | hpart
    · exact hkept.const false
    · exact hparts hitems hmap part hpart
  · refine hkept.conjunction (by simp) fun part hpart => ?_
    rcases List.mem_cons.mp hpart with rfl | hpart
    · exact hkept.const true
    · exact hparts hitems hmap part hpart

theorem Value.leaf_keepsTo {c : Column} {v : Value} {e : Expr} (h : v.leaf c = .ok e) :
    e.KeepsTo [c.table] (v.isData = true) v.mentioned := by
  unfold leaf at h
  split at h
  next =>
    exact (Test.expr_keepsTo h).mono (List.Subset.refl _) (fun hv => by simpa [isData] using hv)
      (List.Subset.refl _)
  next =>
    exact (Operator.membership_keepsTo h).mono (List.Subset.refl _)
      (fun hv => isData_of_mem (by simpa [isData] using hv)) (List.Subset.refl _)
  next => exact Except.ok.inj h ▸ Operator.equality_keepsTo false c _

/-! ## All entries of a mapping -/

namespace Schema

variable {s : Schema} {entity : String} {entries : List (String × Value)} {e : Expr}

/-- An entry is true under an assignment if its condition can be built and is true. -/
def EntryTrue (s : Schema) (σ : Assignment) (entity : String) (entry : String × Value) : Prop :=
  ∃ e, s.entryExpr entity entry = .ok e ∧ e.eval σ = .yes

/-- The condition of an entry is a comparison with the column that its key names. -/
theorem entryExpr_eq_ok {entry : String × Value} :
    s.entryExpr entity entry = .ok e ↔
      ∃ c, s.column entity entry.1 = .ok c ∧ entry.2.leaf c = .ok e := by
  simp [entryExpr, Outcome.bind_eq_ok]

theorem mappingExpr_cases (h : s.mappingExpr entity entries = .ok e) :
    (entries = [] ∧ e = .const true) ∨
      ∃ parts, entries.mapM (s.entryExpr entity) = .ok parts ∧ parts ≠ [] ∧
        e = Expr.conjunction parts := by
  unfold mappingExpr at h
  split at h
  next hempty => exact Or.inl ⟨List.isEmpty_iff.mp hempty, (Except.ok.inj h).symm⟩
  next hempty =>
    simp only [Outcome.bind_eq_ok, Outcome.pure_eq_ok] at h
    obtain ⟨parts, hparts, rfl⟩ := h
    refine Or.inr ⟨parts, hparts, ?_, rfl⟩
    rintro rfl
    simp [List.forall₂_nil_right_iff.mp (Outcome.mapM_eq_ok.mp hparts)] at hempty

/-- The condition of a mapping can be built exactly if those of its entries can. -/
theorem exists_mappingExpr_iff : (∃ e, s.mappingExpr entity entries = .ok e) ↔
    ∀ entry ∈ entries, ∃ part, s.entryExpr entity entry = .ok part := by
  rw [← Outcome.exists_mapM_iff]
  unfold mappingExpr
  split
  next hempty =>
    obtain rfl := List.isEmpty_iff.mp hempty
    exact iff_of_true ⟨_, rfl⟩ ⟨[], rfl⟩
  next =>
    simp only [Outcome.bind_eq_ok, Outcome.pure_eq_ok]
    constructor
    · rintro ⟨_, parts, hparts, _⟩
      exact ⟨parts, hparts⟩
    · rintro ⟨parts, hparts⟩
      exact ⟨_, parts, hparts, rfl⟩

/-- A property that combining conditions keeps holds of a mapping's condition if it holds
of the conditions of its entries. -/
theorem mappingExpr_kept {P : Expr → Prop} (hP : Kept P)
    (h : s.mappingExpr entity entries = .ok e)
    (hentries : ∀ entry ∈ entries, ∀ part, s.entryExpr entity entry = .ok part → P part) :
    P e := by
  rcases mappingExpr_cases h with ⟨_, rfl⟩ | ⟨parts, hparts, hne, rfl⟩
  · exact hP.const true
  · refine hP.conjunction hne fun part hpart => ?_
    obtain ⟨entry, hentry, hpart⟩ := Outcome.exists_of_mem_mapM hparts hpart
    exact hentries entry hentry part hpart

/-- A mapping's condition is true if every entry is. -/
theorem eval_mappingExpr (h : s.mappingExpr entity entries = .ok e) (σ : Assignment) :
    e.eval σ = .yes ↔ ∀ entry ∈ entries, s.EntryTrue σ entity entry := by
  rcases mappingExpr_cases h with ⟨rfl, rfl⟩ | ⟨parts, hparts, hne, rfl⟩
  · simp [Expr.eval, Sql.Truth.ofBool]
  · have hconditions : ∀ part ∈ parts, part.IsCondition := by
      intro part hpart
      obtain ⟨entry, _, hpart⟩ := Outcome.exists_of_mem_mapM hparts hpart
      obtain ⟨c, _, hleaf⟩ := entryExpr_eq_ok.mp hpart
      exact (Value.leaf_keepsTo hleaf).1
    rw [Sql.Expr.eval_conjunction hne hconditions, Sql.Truth.combine_true_eq_yes,
      List.forall_mem_map]
    have hall := Outcome.mapM_eq_ok.mp hparts
    clear h hparts hne hconditions
    induction hall with
    | nil => simp
    | cons hpart _ ih => simp [ih, EntryTrue, hpart]

end Schema

end RowPolicy
