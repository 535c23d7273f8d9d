import RowPolicy.Proofs.Entry
import RowPolicy.Proofs.OutlinedStatements
import RowPolicy.Sample.Queries

/-!
# The text with bound parameters

A statement with bound parameters shows the place of each value and the name made for it, and not
the value. So statements with the same outline have the same text and the same names of
parameters, or cannot be written for the same reason, and literals do not reach the text.
-/

namespace RowPolicy

open Outcome (view view_cases)

/-- The keys inserted into a dictionary do not depend on their values. -/
theorem Dict.keys_ofList_congr {κ α : Type} [DecidableEq κ] {entries entries' : List (κ × α)}
    (h : entries.map Prod.fst = entries'.map Prod.fst) :
    (Dict.ofList entries).keys = (Dict.ofList entries').keys := by
  refine foldl_congr_map (g := Dict.keys) (fun d d' entry entry' hkeys hentry => ?_) h rfl
  rw [Dict.keys_insert, Dict.keys_insert, hkeys, hentry]

namespace Sql

/-! ## Templates -/

/-- A piece without the values in its place. -/
def Piece.outline : Piece → Piece
  | .value c _ => .value c .null
  | .members c negated _ => .members c negated []
  | piece => piece

@[simp] theorem Piece.baseName?_outline (piece : Piece) :
    piece.outline.baseName? = piece.baseName? := by
  cases piece <;> rfl

namespace Template

/-- A template without the values in its places. -/
def outline (template : Template) : Template := template.map Piece.outline

variable {l l' r r' template template' : Template}

theorem isEmpty_congr (h : outline l = outline l') : l.isEmpty = l'.isEmpty := by
  simpa [outline] using congrArg List.isEmpty h

theorem append_congr (hl : outline l = outline l') (hr : outline r = outline r') :
    outline (l ++ r) = outline (l' ++ r') := by
  unfold outline at *
  rw [List.map_append, hl, hr, List.map_append]

theorem cons_congr (piece : Piece) (h : outline template = outline template') :
    outline (piece :: template) = outline (piece :: template') :=
  congrArg (piece.outline :: ·) h

theorem parenthesized_congr (h : outline template = outline template') :
    outline template.parenthesized = outline template'.parenthesized :=
  cons_congr _ (append_congr h rfl)

theorem separate_congr (separator : String) (hl : outline l = outline l')
    (hr : outline r = outline r') :
    outline (separate separator l r) = outline (separate separator l' r') := by
  unfold separate
  rw [isEmpty_congr hl, isEmpty_congr hr]
  split
  next => exact hr
  next =>
    split
    next => exact hl
    next => exact append_congr hl (cons_congr _ hr)

theorem listed_congr {parts parts' : List Template} (h : parts.map outline = parts'.map outline) :
    outline (listed parts) = outline (listed parts') := by
  induction parts generalizing parts' with
  | nil =>
      obtain rfl := List.map_eq_nil_iff.mp h.symm
      rfl
  | cons part rest ih =>
      match parts', h with
      | [], h => cases h
      | part' :: rest', h =>
          obtain ⟨hpart, hrest⟩ := List.cons.inj h
          match rest, rest', hrest with
          | [], [], _ => exact hpart
          | [], _ :: _, hrest | _ :: _, [], hrest => cases hrest
          | second :: more, second' :: more', hrest =>
              exact append_congr hpart (cons_congr _ (ih hrest))

/-! ## Text and names -/

/-- What a statement with bound parameters shows: its text and the names of its parameters. -/
def Bound.shown (b : Bound) : String × List String := (b.text, b.parameters.keys)

theorem numbered_outline (template : Template) :
    (outline template).numbered = template.numbered.map (Prod.map Piece.outline id) := by
  -- the numbers count the base names met before, which values do not change
  have hgo : ∀ (pieces : List Piece) (used : List String),
      numbered.go used (pieces.map Piece.outline) =
        (numbered.go used pieces).map (Prod.map Piece.outline id) := by
    intro pieces
    induction pieces with
    | nil => exact fun _ => rfl
    | cons piece rest ih =>
        intro used
        rw [List.map_cons, numbered.go, numbered.go, Piece.baseName?_outline]
        cases piece.baseName? with
        | none => exact congrArg (List.cons _) (ih used)
        | some name => exact congrArg (List.cons _) (ih (name :: used))
  exact hgo template []

/-- A template is written with bound parameters as it is without values. -/
theorem bound_outline (template : Template) :
    view id Bound.shown template.bound = view id Bound.shown (outline template).bound := by
  have hsourceless : (outline template).any Piece.isSourceless =
      template.any Piece.isSourceless := by
    rw [outline, List.any_map]
    exact congrArg template.any (funext fun piece => by cases piece <;> rfl)
  have hnamed : (outline template).namedParameters = template.namedParameters := by
    unfold namedParameters outline
    rw [List.filterMap_map]
    exact List.filterMap_congr fun piece _ => by cases piece <;> rfl
  have hgenerated : (outline template).generatedParameters = template.generatedParameters := by
    unfold generatedParameters
    rw [numbered_outline, List.filterMap_map]
    exact List.filterMap_congr fun entry _ => by obtain ⟨piece, n⟩ := entry; cases piece <;> rfl
  have htext : (outline template).numbered.map boundPiece = template.numbered.map boundPiece := by
    rw [numbered_outline, List.map_map]
    exact List.map_congr_left fun entry _ => by obtain ⟨piece, n⟩ := entry; cases piece <;> rfl
  have hnames : ((outline template).numbered.filterMap parameter?).map Prod.fst =
      (template.numbered.filterMap parameter?).map Prod.fst := by
    rw [numbered_outline, List.filterMap_map, List.map_filterMap, List.map_filterMap]
    exact List.filterMap_congr fun entry _ => by obtain ⟨piece, n⟩ := entry; cases piece <;> rfl
  unfold bound
  rw [hsourceless, hnamed, hgenerated, htext]
  split
  next => rfl
  next =>
    split
    next => rfl
    next =>
      exact congrArg Except.ok (Prod.ext rfl (Dict.keys_ofList_congr hnames.symm))

/-- Templates that differ in values only show the same text and the same names. -/
theorem bound_congr (h : outline template = outline template') :
    view id Bound.shown template.bound = view id Bound.shown template'.bound := by
  rw [bound_outline, h, ← bound_outline]

end Template

end Sql

/-! ## Expressions -/

open Sql.Template (append_congr cons_congr parenthesized_congr separate_congr listed_congr)

namespace Value

theorem template_outline (around : List String) (c : Sql.Column) (v : Value) :
    (v.outline.template around c).outline = (v.template around c).outline := by
  cases v <;> rfl

theorem itemTemplates_outline (around : List String) (c : Sql.Column) (values : List Value) :
    (itemTemplates around c (values.map outline)).map Sql.Template.outline =
      (itemTemplates around c values).map Sql.Template.outline := by
  have hitem : ∀ v : Value, (v.outline.itemTemplate around c).outline =
      (v.itemTemplate around c).outline := by
    intro v
    cases v <;> rfl
  induction values with
  | nil => rfl
  | cons v rest ih => exact List.cons_eq_cons.mpr ⟨hitem v, ih⟩

theorem tables_outline (v : Value) : v.outline.tables = v.tables := by
  cases v <;> rfl

theorem tablesOfAll_outline (values : List Value) :
    tablesOfAll (if values.any isPart then values.map outline else []) = tablesOfAll values := by
  have hmap : ∀ values : List Value, tablesOfAll (values.map outline) = tablesOfAll values := by
    intro values
    induction values with
    | nil => rfl
    | cons v rest ih => rw [List.map_cons, tablesOfAll, tables_outline, ih, tablesOfAll]
  split
  next => exact hmap values
  next hparts =>
    exact (tablesOfAll_eq_nil (by simpa [List.any_eq_false] using hparts)).symm

end Value

namespace Sql

namespace Expr

@[simp] theorem isDisjunction_outline (e : Expr) : e.outline.isDisjunction = e.isDisjunction := by
  unfold outline
  split <;> rfl

@[simp] theorem isAtomic_outline (e : Expr) : e.outline.isAtomic = e.isAtomic := by
  unfold outline
  split <;> rfl

theorem tables_outline : ∀ e : Expr, e.outline.tables = e.tables
  | const _ | settled _ | unknown | blank _ | fragment _ | nullTest _ _ => rfl
  | compare _ c (.value v) => congrArg (c.table :: ·) v.tables_outline
  | compare _ _ (.truth _) | compare _ _ (.column _) => rfl
  | like _ c pattern => congrArg (c.table :: ·) pattern.tables_outline
  | member _ c values => congrArg (c.table :: ·) (Value.tablesOfAll_outline values)
  | isNotTrue e => tables_outline e
  | and l r | or l r => congrArg₂ (· ++ ·) (tables_outline l) (tables_outline r)

/-- The template of an outline is that of the expression, apart from the values in its places. -/
theorem template_outline (around : List String) :
    ∀ e : Expr, (e.outline.template around).outline = (e.template around).outline
  | const _ | settled _ | unknown | blank _ | fragment _ | nullTest _ _ => rfl
  | compare r c (.value v) => cons_congr _ (v.template_outline around c)
  | compare _ _ (.truth _) | compare _ _ (.column _) => rfl
  | like _ c pattern => append_congr (cons_congr _ (pattern.template_outline around c)) rfl
  | member negated c values => by
      cases hparts : values.any Value.isPart with
      | false =>
          -- without a part of a statement among them the members share one place
          cases negated <;> simp [outline, template, hparts, Template.outline, Piece.outline]
      | true =>
          have hempty : ∀ template : Template,
              (!List.isEmpty (Template.outline template)) = !List.isEmpty template := by
            simp [Template.outline]
          have hitems := map_filter_congr (p := (!List.isEmpty ·)) hempty
            (Value.itemTemplates_outline around c values)
          have hparts' : (values.map Value.outline).any Value.isPart = true := by
            simpa [List.any_map, Function.comp_def] using hparts
          rw [outline, if_pos hparts, template, if_pos hparts', template, if_pos hparts]
          cases negated with
          | true => exact cons_congr _ (append_congr (listed_congr hitems) rfl)
          | false => exact cons_congr _ (append_congr (listed_congr hitems) rfl)
  | isNotTrue e => by
      have he := template_outline around e
      rw [outline, template, template]
      refine append_congr ?_ rfl
      unfold enclosed
      rw [isAtomic_outline]
      split
      next => exact he
      next => exact parenthesized_congr he
  | and l r => by
      have hbeside : ∀ e : Expr,
          (e.outline.template around).outline = (e.template around).outline →
          (e.outline.besideAnd (e.outline.template around)).outline =
            (e.besideAnd (e.template around)).outline := by
        intro e he
        unfold besideAnd
        rw [isDisjunction_outline]
        split
        next => exact parenthesized_congr he
        next => exact he
      exact separate_congr _ (hbeside l (template_outline around l))
        (hbeside r (template_outline around r))
  | or l r => separate_congr _ (template_outline around l) (template_outline around r)

end Expr

/-! ## Statements -/

namespace Select

theorem extraTables_outline (s : Select) : s.outline.extraTables = s.extraTables := by
  obtain ⟨entity, joins, filter, distinct⟩ := s
  cases filter with
  | none => rfl
  | some e => exact congrArg (otherTables _) e.tables_outline

theorem template_outline (s : Select) :
    s.outline.template.outline = s.template.outline := by
  have htables : s.outline.tables = s.tables :=
    congrArg (s.joinedTables ++ ·) s.extraTables_outline
  have hfilter : s.outline.filterTemplate.outline = s.filterTemplate.outline := by
    unfold filterTemplate
    rw [htables]
    obtain ⟨entity, joins, filter, distinct⟩ := s
    cases filter with
    | none => rfl
    | some e => exact e.template_outline _
  unfold template selectTemplate
  rw [extraTables_outline, Template.isEmpty_congr hfilter]
  refine append_congr rfl ?_
  split
  next => rfl
  next => exact cons_congr _ hfilter

theorem bound_outline (s : Select) :
    view id Template.Bound.shown s.bound = view id Template.Bound.shown s.outline.bound := by
  have hself : s.outline.selfJoin? = s.selfJoin? := rfl
  unfold bound write
  rw [hself]
  cases s.selfJoin? with
  | some table => rfl
  | none => exact (Template.bound_congr s.template_outline).symm

end Select

/-- Statements with the same outline show the same text and the same names. -/
theorem Statement.bound_congr {statement statement' : Statement}
    (h : statement.outline = statement'.outline) :
    view id Template.Bound.shown statement.bound =
      view id Template.Bound.shown statement'.bound := by
  have houtline : ∀ statement : Statement, view id Template.Bound.shown statement.bound =
      view id Template.Bound.shown statement.outline.bound := by
    intro statement
    cases statement with
    | select s => exact s.bound_outline
    | given v => rfl
  rw [houtline, h, ← houtline]

end Sql

/-! ## Two lists of rules -/

namespace Query

/-- Rules that differ in literals only have statements that differ in values of parameters only:
either both lists fail with errors that look the same, or there are two statements of the same
structure, which have the same text and names of parameters or cannot be written for the same
reason. -/
theorem records_show_no_literal (q : Query) {rules rules' : List Rule}
    (h : rules.map Rule.outline = rules'.map Rule.outline) :
    (∃ e e', (q.withRules rules).records = .error e ∧ (q.withRules rules').records = .error e' ∧
      e.outline = e'.outline ∧ e.message = e'.message) ∨
    ∃ built built', (q.withRules rules).records = .ok built ∧
      (q.withRules rules').records = .ok built' ∧
      built.statement.outline = built'.statement.outline ∧ built.joins = built'.joins ∧
      ((∃ e, built.statement.bound = .error e ∧ built'.statement.bound = .error e) ∨
        ∃ b b', built.statement.bound = .ok b ∧ built'.statement.bound = .ok b' ∧
          b.text = b'.text ∧ b.parameters.keys = b'.parameters.keys) := by
  obtain ⟨e, e', he, he', houtline⟩ | ⟨built, built', hbuilt, hbuilt', houtline⟩ :=
    view_cases (records_congr (q := q) h)
  · refine Or.inl ⟨e, e', he, he', houtline, ?_⟩
    rw [← e.message_outline, houtline, e'.message_outline]
  · obtain ⟨hstatement, _, hjoins⟩ := Records.mk.inj houtline
    refine Or.inr ⟨built, built', hbuilt, hbuilt', hstatement, hjoins, ?_⟩
    obtain ⟨e, e', he, he', rfl⟩ | ⟨b, b', hb, hb', hshown⟩ :=
      view_cases (Sql.Statement.bound_congr hstatement)
    · exact Or.inl ⟨e, he, he'⟩
    · obtain ⟨htext, hnames⟩ := Prod.mk.inj hshown
      exact Or.inr ⟨b, b', hb, hb', htext, hnames⟩

/-- Posts after one of two are readable, unless they have a certain comment. -/
def commentRules (body : String) (low high : Int) : List Rule :=
  [Sample.readRule false "Post" (.association "comments" (.literal "body" (.str body) .nil) .nil),
    Sample.readRule true "Post" (.literal "id"
      (.comparison ⟨.gt, .any⟩ (.collection .list [.int low, .int high])) .nil)]

theorem commentRules_show_no_literal : ∃ s s' b b',
    ((Sample.reading "Post" []).withRules (commentRules "Nice" 1 2)).statement = .ok s ∧
    ((Sample.reading "Post" []).withRules (commentRules "' OR 1 = 1" 7 0)).statement = .ok s' ∧
    s.bound = .ok b ∧ s'.bound = .ok b' ∧ b.text = b'.text ∧
    b.parameters.keys = b'.parameters.keys ∧ b.parameters.keys = ["body_1", "id_1", "id_2"] ∧
    b.parameters.get? "body_1" = some (.str "Nice") ∧
    b'.parameters.get? "body_1" = some (.str "' OR 1 = 1") := by
  have hrecords : ((Sample.reading "Post" []).withRules (commentRules "Nice" 1 2)).records =
    .ok _ := rfl
  have hrecords' : ((Sample.reading "Post" []).withRules
    (commentRules "' OR 1 = 1" 7 0)).records = .ok _ := rfl
  have hrules : (commentRules "Nice" 1 2).map Rule.outline =
    (commentRules "' OR 1 = 1" 7 0).map Rule.outline := rfl
  obtain ⟨_, _, he, _⟩ | ⟨built, built', hbuilt, hbuilt', _, _, hbound⟩ :=
    records_show_no_literal (Sample.reading "Post" []) hrules
  · cases hrecords.symm.trans he
  · obtain rfl := Except.ok.inj (hrecords.symm.trans hbuilt)
    obtain rfl := Except.ok.inj (hrecords'.symm.trans hbuilt')
    obtain ⟨_, he, _⟩ | ⟨b, b', hb, hb', htext, hnames⟩ := hbound
    · cases he
    · obtain rfl := Except.ok.inj hb
      obtain rfl := Except.ok.inj hb'
      exact ⟨_, _, _, _, rfl, rfl, rfl, rfl, htext, hnames, by decide +kernel, rfl, rfl⟩

end Query

end RowPolicy
