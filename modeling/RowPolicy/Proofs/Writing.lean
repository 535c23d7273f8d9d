import RowPolicy.Proofs.Running

/-!
# Statements that can be written

A plain filter consists of text and of places with values of their own. A statement with such a
filter can be written down unless it joins a table directly to itself, and if its tables differ it
runs as soon as its values can be passed.
-/

namespace RowPolicy

namespace Sql

/-- Whether a piece is text or has values of its own. Parameters named in a fragment have none,
and neither has a selection without tables. -/
def Piece.IsComplete : Piece → Prop
  | .named _ | .sourceless => False
  | .text _ | .truth _ | .value _ _ | .members _ _ _ | .aliased _ _ => True

/-- Whether all pieces of a template are complete. -/
def Template.IsComplete (template : Template) : Prop := ∀ piece ∈ template, piece.IsComplete

namespace Template

variable {P : Piece → Prop} {l r template : Template}

theorem forall_mem_parenthesized (htext : ∀ s, P (.text s)) (h : ∀ piece ∈ template, P piece) :
    ∀ piece ∈ template.parenthesized, P piece :=
  List.forall_mem_cons.mpr ⟨htext _, List.forall_mem_append.mpr
    ⟨h, List.forall_mem_singleton.mpr (htext _)⟩⟩

theorem forall_mem_separate (htext : ∀ s, P (.text s)) (separator : String)
    (hl : ∀ piece ∈ l, P piece) (hr : ∀ piece ∈ r, P piece) :
    ∀ piece ∈ separate separator l r, P piece := by
  unfold Template.separate
  split
  · exact hr
  · split
    · exact hl
    · exact List.forall_mem_append.mpr ⟨hl, List.forall_mem_cons.mpr ⟨htext _, hr⟩⟩

/-- A complete template can be written with bound parameters. -/
theorem IsComplete.exists_bound (h : template.IsComplete) :
    template.namedParameters = [] ∧ ∃ b, template.bound = .ok b := by
  have hnamed : template.namedParameters = [] := by
    rw [namedParameters, List.filterMap_eq_nil_iff]
    intro piece hpiece
    have hcomplete := h piece hpiece
    cases piece <;> first | rfl | exact hcomplete.elim
  have hsources : template.any Piece.isSourceless = false := by
    rw [List.any_eq_false]
    intro piece hpiece hsourceless
    have hcomplete := h piece hpiece
    cases piece <;> first | exact hcomplete | cases hsourceless
  have hclash : template.generatedParameters.find? (· ∈ template.namedParameters) = none := by
    simp [hnamed]
  refine ⟨hnamed, ⟨String.join (template.numbered.map boundPiece),
    .ofList (template.numbered.filterMap parameter?)⟩, ?_⟩
  rw [bound, hsources, hclash]
  rfl

end Template

end Sql

theorem Value.template_isComplete {v : Value} (h : v.isPart = false) (around : List String)
    (c : Sql.Column) : (v.template around c).IsComplete := by
  have htemplate : v.template around c = [.value c v] := by
    cases v <;> first | rfl | cases h
  rw [htemplate]
  exact List.forall_mem_singleton.mpr trivial

namespace Sql

namespace Expr

/-! ### Pieces of combined conditions -/

section Pieces

variable {P : Piece → Prop} {around : List String} {e l r : Expr}

theorem forall_mem_template_isNotTrue (htext : ∀ s, P (.text s)) (htruth : ∀ b, P (.truth b))
    (h : ∀ piece ∈ e.template around, P piece) :
    ∀ piece ∈ (isNotTrue e).template around, P piece := by
  rw [Expr.template]
  refine List.forall_mem_append.mpr ⟨?_, by simp [htext, htruth]⟩
  unfold enclosed
  split
  · exact h
  · exact Template.forall_mem_parenthesized htext h

theorem forall_mem_template_and (htext : ∀ s, P (.text s))
    (hl : ∀ piece ∈ l.template around, P piece) (hr : ∀ piece ∈ r.template around, P piece) :
    ∀ piece ∈ (and l r).template around, P piece := by
  have hbeside : ∀ e : Expr, (∀ piece ∈ e.template around, P piece) →
      ∀ piece ∈ e.besideAnd (e.template around), P piece := by
    intro e he
    unfold besideAnd
    split
    · exact Template.forall_mem_parenthesized htext he
    · exact he
  rw [Expr.template]
  exact Template.forall_mem_separate htext _ (hbeside l hl) (hbeside r hr)

theorem forall_mem_template_or (htext : ∀ s, P (.text s))
    (hl : ∀ piece ∈ l.template around, P piece) (hr : ∀ piece ∈ r.template around, P piece) :
    ∀ piece ∈ (or l r).template around, P piece := by
  rw [Expr.template]
  exact Template.forall_mem_separate htext _ hl hr

end Pieces

end Expr

/-- Every piece of a plain expression is complete. -/
theorem Expr.template_isComplete (around : List String) :
    ∀ e : Expr, e.isPlain = true → (e.template around).IsComplete
  | .const _, _ | .settled _, _ | .unknown, _ | .nullTest _ _, _ => by
      simp [Expr.template, Template.IsComplete, Piece.IsComplete]
  | .compare _ c (.value v), h => by
      have hv : v.isPart = false := by simpa [isPlain] using h
      rw [Expr.template, Operand.template]
      exact List.forall_mem_cons.mpr ⟨trivial, Value.template_isComplete hv around c⟩
  | .compare _ _ (.truth _), _ | .compare _ _ (.column _), _ => by
      simp [Expr.template, Operand.template, Template.IsComplete, Piece.IsComplete]
  | .like _ c v, h => by
      have hv : v.isPart = false := by simpa [isPlain] using h
      rw [Expr.template]
      exact List.forall_mem_append.mpr ⟨List.forall_mem_cons.mpr
        ⟨trivial, Value.template_isComplete hv around c⟩, List.forall_mem_singleton.mpr trivial⟩
  -- without parts among them the members are one piece, whatever their number
  | .member negated _ values, h => by
      have hvalues : values.any Value.isPart = false := by simpa [isPlain] using h
      cases negated <;>
        simp [Expr.template, hvalues, Template.IsComplete, Piece.IsComplete]
  | .isNotTrue e, h =>
      Expr.forall_mem_template_isNotTrue (fun _ => trivial) (fun _ => trivial)
        (template_isComplete around e h)
  | .and l r, h => by
      have hparts : l.isPlain = true ∧ r.isPlain = true := by simpa [isPlain] using h
      exact Expr.forall_mem_template_and (fun _ => trivial)
        (template_isComplete around l hparts.1) (template_isComplete around r hparts.2)
  | .or l r, h => by
      have hparts : l.isPlain = true ∧ r.isPlain = true := by simpa [isPlain] using h
      exact Expr.forall_mem_template_or (fun _ => trivial)
        (template_isComplete around l hparts.1) (template_isComplete around r hparts.2)

namespace Select

variable {s : Select} {sch : Schema} {p : Expr}

/-- What a join along a relationship is written as is complete. -/
theorem joinTemplate_isComplete {join : Join} (h : sch.HasJoin join) :
    (joinTemplate join).IsComplete := by
  obtain ⟨source, name, r, target, rfl, _⟩ := h
  change (linkTemplate target.table r.link).IsComplete
  cases r.link <;> simp [linkTemplate, Template.IsComplete, Piece.IsComplete]

theorem template_isComplete (hfilter : s.filter = some p) (hplain : p.isPlain = true)
    (hjoins : ∀ join ∈ s.distinctJoins, sch.HasJoin join) : s.template.IsComplete := by
  have hp : s.filterTemplate.IsComplete := by
    rw [filterTemplate, hfilter]
    exact Expr.template_isComplete s.tables p hplain
  have hjoined : Template.IsComplete (s.distinctJoins.flatMap joinTemplate) := by
    intro piece hpiece
    obtain ⟨join, hjoin, hpiece⟩ := List.mem_flatMap.mp hpiece
    exact joinTemplate_isComplete (hjoins join hjoin) piece hpiece
  unfold template selectTemplate
  refine List.forall_mem_append.mpr ⟨List.forall_mem_append.mpr
    ⟨List.forall_mem_cons.mpr ⟨trivial, hjoined⟩, ?_⟩, ?_⟩
  · intro piece hpiece
    obtain ⟨table, _, rfl⟩ := List.mem_map.mp hpiece
    trivial
  · split
    · exact List.forall_mem_nil _
    · exact List.forall_mem_cons.mpr ⟨trivial, hp⟩

/-- Relationships of other entities do not join a table directly to itself. -/
theorem selfJoin?_eq_none (h : ∀ join ∈ s.joins, ∃ source r target,
    join = .related source r target ∧ source.name ≠ target.name) : s.selfJoin? = none := by
  have hrelated : ∀ joins : List Join, (∀ join ∈ joins, ∃ source r target,
      join = .related source r target ∧ source.name ≠ target.name) →
        selfJoin?.related? joins = none := by
    intro joins
    induction joins with
    | nil => exact fun _ => rfl
    | cons join rest ih =>
        intro hall
        obtain ⟨⟨source, r, target, rfl, hne⟩, hrest⟩ := List.forall_mem_cons.mp hall
        rw [selfJoin?.related?, if_neg (by simpa using hne)]
        exact ih hrest
  unfold selfJoin?
  split
  next subject on rest hjoins =>
    rw [hjoins] at h
    obtain ⟨_, _, _, heq, _⟩ := h _ List.mem_cons_self
    cases heq
  next => exact hrelated s.joins h

/-- Joins along relationships start from tables that need not be known. -/
theorem notJoined?_eq_none {joins : List Join} (h : ∀ join ∈ joins, sch.HasJoin join)
    (known : List String) : notJoined? known joins = none := by
  induction joins generalizing known with
  | nil => rfl
  | cons join rest ih =>
      obtain ⟨⟨source, name, r, target, rfl, _⟩, hrest⟩ := List.forall_mem_cons.mp h
      exact ih hrest _

/-- If the tables of a statement differ, what is passed to run it are its values, as far as they
can be. -/
theorem passed_eq (hfilter : s.filter = some p) (hplain : p.isPlain = true)
    (hjoins : ∀ join ∈ s.distinctJoins, sch.HasJoin join) (hself : s.selfJoin? = none)
    (hnodup : s.tables.Nodup) : s.passed = (convertAll s.template.values >>= passAll) := by
  obtain ⟨hnamed, b, hb⟩ := (template_isComplete hfilter hplain hjoins).exists_bound
  have hbound : s.bound = .ok b := by
    rw [bound, write, hself]
    exact hb
  have hconverted : s.convertedValues = convertAll s.template.values := by
    rw [convertedValues, hbound, hnamed]
  have hcheck : s.checkTables = .ok () := by
    rw [checkTables, repeated?_eq_none.mpr hnodup, notJoined?_eq_none hjoins]
  rw [passed, hconverted, hcheck]
  rfl

end Select

end Sql

end RowPolicy
