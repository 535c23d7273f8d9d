import RowPolicy.Proofs.Writing

/-!
# The text with literal values

A template can be written with literal values exactly if every value in its places has a literal
and every selection in it a table. Combining conditions adds no values, so what rules are combined
to can be written if the conditions of the rules can.
-/

namespace RowPolicy.Sql

/-- Whether a piece can be written with literal values. -/
def Piece.IsLiteral : Piece → Prop
  | .value c v => ((c.parameterType v).literal? v).isSome = true
  | .members c _ values => ∀ v ∈ values, ((c.memberType values).literal? v).isSome = true
  | .sourceless => False
  | .text _ | .truth _ | .named _ | .aliased _ _ => True

theorem exists_literal_iff {type : ScalarType} {v : Value} :
    (∃ text, literal type v = .ok text) ↔ (type.literal? v).isSome = true := by
  unfold literal
  cases type.literal? v <;> simp

namespace Template

/-- A piece can be written or not, whatever its number. -/
theorem exists_literalPiece_iff {piece : Piece} {n : Nat} :
    (∃ text, literalPiece (piece, n) = .ok text) ↔ piece.IsLiteral := by
  cases piece with
  | text s => simp [literalPiece, Piece.IsLiteral]
  | truth b => simp [literalPiece, Piece.IsLiteral]
  | value c v => exact exists_literal_iff
  | named name => simp [literalPiece, Piece.IsLiteral]
  | aliased table around => simp [literalPiece, Piece.IsLiteral]
  | sourceless => simp [literalPiece, Piece.IsLiteral]
  | members c negated values =>
      cases values with
      | nil => simp [literalPiece, Piece.IsLiteral]
      | cons v rest =>
          rw [literalPiece, Piece.IsLiteral]
          · simp only [Outcome.bind_eq_ok, Outcome.pure_eq_ok, ← exists_literal_iff,
              ← Outcome.exists_mapM_iff]
            constructor
            · rintro ⟨_, texts, htexts, rfl⟩
              exact ⟨texts, htexts⟩
            · rintro ⟨texts, htexts⟩
              exact ⟨_, texts, htexts, rfl⟩
          · simp

/-- Numbering the pieces of a template leaves them as they are. -/
theorem map_fst_numbered (template : Template) : template.numbered.map Prod.fst = template := by
  have hgo : ∀ (pieces : List Piece) (used : List String),
      (numbered.go used pieces).map Prod.fst = pieces := by
    intro pieces
    induction pieces with
    | nil => exact fun _ => rfl
    | cons piece rest ih =>
        intro used
        rw [numbered.go]
        split <;> rw [List.map_cons, ih]
  exact hgo template []

/-- A template can be written with literal values exactly if each of its pieces can. -/
theorem exists_literalText_iff {template : Template} :
    (∃ text, template.literalText = .ok text) ↔ ∀ piece ∈ template, piece.IsLiteral := by
  have hpieces : (∃ texts, template.numbered.mapM literalPiece = .ok texts) ↔
      ∀ piece ∈ template, piece.IsLiteral := by
    rw [Outcome.exists_mapM_iff]
    conv_rhs => rw [← map_fst_numbered template, List.forall_mem_map]
    exact forall₂_congr fun _ _ => exists_literalPiece_iff
  rw [← hpieces]
  simp only [literalText, Outcome.bind_eq_ok, Outcome.pure_eq_ok]
  constructor
  · rintro ⟨_, texts, htexts, rfl⟩
    exact ⟨texts, htexts⟩
  · rintro ⟨texts, htexts⟩
    exact ⟨_, texts, htexts, rfl⟩

end Template

namespace Expr

variable {e : Expr} {parts : List Expr}

/-- Whether an expression can be written with literal values by itself. -/
def IsWritable (e : Expr) : Prop := ∀ piece ∈ e.template [], piece.IsLiteral

theorem exists_literalText_iff : (∃ text, e.literalText = .ok text) ↔ e.IsWritable :=
  Template.exists_literalText_iff

theorem isWritable_const (b : Bool) : (const b).IsWritable :=
  List.forall_mem_singleton.mpr trivial

theorem isWritable_settled (b : Bool) : (settled b).IsWritable :=
  List.forall_mem_singleton.mpr trivial

theorem isWritable_blank (unit : Bool) : (blank unit).IsWritable :=
  List.forall_mem_nil _

theorem isWritable_nullTest (negated : Bool) (c : Column) : (nullTest negated c).IsWritable :=
  List.forall_mem_singleton.mpr trivial

theorem IsWritable.or {l r : Expr} (hl : l.IsWritable) (hr : r.IsWritable) :
    (or l r).IsWritable :=
  forall_mem_template_or (fun _ => trivial) hl hr

/-- A condition that can be written with literal values: combining and negating keeps it one. -/
theorem kept_isWritable : Kept fun e => e.IsCondition ∧ e.IsWritable where
  const b := ⟨trivial, isWritable_const b⟩
  settled b := ⟨trivial, isWritable_settled b⟩
  isNotTrue h :=
    ⟨trivial, forall_mem_template_isNotTrue (fun _ => trivial) (fun _ => trivial) h.2⟩
  and hl hr := ⟨trivial, forall_mem_template_and (fun _ => trivial) hl.2 hr.2⟩
  or hl hr := ⟨trivial, hl.2.or hr.2⟩
  isCondition h := h.1

/-- A disjunction can be written if its parts can, also if some of them are no conditions that
could be negated. -/
theorem IsWritable.disjunction (hparts : ∀ e ∈ parts, e.IsWritable) :
    (disjunction parts).IsWritable := by
  -- `Kept.disjunction` does not apply, because fragments and blank parts are no conditions
  have hchain : ∀ (rest : List Expr) (first : Expr), first.IsWritable →
      (∀ e ∈ rest, e.IsWritable) → (rest.foldl .or first).IsWritable := by
    intro rest
    induction rest with
    | nil => exact fun _ hfirst _ => hfirst
    | cons e rest ih =>
        intro first hfirst hrest
        obtain ⟨he, hrest⟩ := List.forall_mem_cons.mp hrest
        exact ih _ (hfirst.or he) hrest
  have hlinked : ∀ parts : List Expr, (∀ e ∈ parts, e.IsWritable) →
      (linked false .or parts).IsWritable := by
    intro parts hparts
    have hleft : ∀ e ∈ parts.filter (fun e => !e.isBlank false), e.IsWritable :=
      fun e he => hparts e (List.mem_filter.mp he).1
    unfold linked
    split
    next => exact isWritable_blank false
    next only heq => exact (hleft only (by simp [heq])).or (isWritable_blank false)
    next first rest _ heq =>
      rw [heq] at hleft
      obtain ⟨hfirst, hrest⟩ := List.forall_mem_cons.mp hleft
      exact hchain rest first hfirst hrest
  have hleft : ∀ e ∈ parts.filter (fun e => e.constant? != some false), e.IsWritable :=
    fun e he => hparts e (List.mem_filter.mp he).1
  unfold Expr.disjunction combine
  split
  · exact isWritable_blank false
  · split
    · exact isWritable_settled _
    · split
      next => exact isWritable_settled false
      next only heq => exact hleft only (by simp [heq])
      next => exact hlinked _ hleft

end Expr

end RowPolicy.Sql
