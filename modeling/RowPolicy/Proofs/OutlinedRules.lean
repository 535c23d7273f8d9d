import RowPolicy.Proofs.Outline

/-!
# Rules without the content of their literals

Rules whose conditions have the same outlines, the same associations and names with the same kinds
of values under them, are built into expressions with the same outline, or fail alike: no step from
a condition to the combined filter looks at a literal.
-/

namespace RowPolicy

open Outcome (view view_bind view_bind_same view_map view_mapM view_foldlM)
open Sql (Column Expr)

/-! ## Conditions -/

/-- An entry of a mapping with the outline of its value. -/
def Value.outlineEntry (entry : String × Value) : String × Value := (entry.1, entry.2.outline)

/-- The entries of a dictionary with the outlines of their values. -/
def Dict.outline (d : Dict String Value) : List (String × Value) :=
  d.entries.map Value.outlineEntry

/-- A condition with the outlines of the values in it. -/
def ConditionTree.outline : ConditionTree → ConditionTree
  | nil => nil
  | literal name value rest => literal name value.outline rest.outline
  | association name inner rest => association name inner.outline rest.outline

/-- The outline of a condition. A fragment and a scope are parts of a statement. -/
def Condition.outline : Condition → Condition
  | mapping tree => mapping tree.outline
  | fragment body => fragment body
  | scope body => scope body

/-- A rule with the outline of its condition. -/
def Rule.outline (rule : Rule) : Rule := { rule with condition := rule.condition.outline }

namespace ConditionTree

theorem isEmpty_outline (tree : ConditionTree) : tree.outline.isEmpty = tree.isEmpty := by
  cases tree <;> rfl

theorem literals_outline (tree : ConditionTree) :
    tree.outline.literals = tree.literals.map Value.outlineEntry := by
  induction tree with
  | nil => rfl
  | literal name value rest ih => rw [outline, literals, literals, ih, List.map_cons]; rfl
  | association name inner rest _ ih => exact ih

theorem associations_outline (tree : ConditionTree) :
    tree.outline.associations = tree.associations := by
  induction tree with
  | nil => rfl
  | literal name value rest ih => exact ih
  | association name inner rest ihInner ihRest =>
      rw [outline, associations, associations, ihInner, ihRest]

end ConditionTree

namespace Condition

@[simp] theorem isMergeable_outline (c : Condition) : c.outline.isMergeable = c.isMergeable := by
  cases c <;> rfl

@[simp] theorem kind_outline (c : Condition) : c.outline.kind = c.kind := by
  cases c <;> rfl

theorem isBlank_outline (c : Condition) : c.outline.isBlank = c.isBlank := by
  cases c with
  | mapping tree => exact tree.isEmpty_outline
  | _ => rfl

theorem associations_outline (c : Condition) : c.outline.associations = c.associations := by
  cases c with
  | mapping tree => exact tree.associations_outline
  | _ => rfl

end Condition

/-! ### Conditions as they are given -/

theorem ConditionTree.outline_ofEntries (entries : List (String × Value)) :
    (ofEntries entries).outline = ofEntries (Value.outlineEntries entries) := by
  fun_induction ofEntries entries with
  | case1 => simp only [Value.outlineEntries, ofEntries, outline]
  | case2 name inner rest ihInner ihRest =>
      simp only [Value.outlineEntries, Value.outline, ofEntries, outline, ihInner, ihRest]
  | case3 name value rest hmap ih =>
      rw [Value.outlineEntries, outline, ih]
      cases value with
      | map entries => exact (hmap entries rfl).elim
      | _ => simp only [Value.outline, ofEntries]

/-- Values with the same outline stand for conditions with the same outline, or are refused alike.
A text is a condition as it is. -/
theorem Value.resolve_congr {v w : Value} (h : v.outline = w.outline) (htext : v.isText = false) :
    view id Condition.outline v.resolve = view id Condition.outline w.resolve := by
  have houtline : ∀ v : Value, v.isText = false →
      view id Condition.outline v.resolve = view id Condition.outline v.outline.resolve := by
    intro v htext
    cases v with
    | scalar s => cases s <;> first | rfl | cases htext
    | collection kind items => cases kind <;> rfl
    | map entries =>
        refine congrArg (fun tree => Except.ok (Condition.mapping tree)) ?_
        rw [ConditionTree.outline_ofEntries, ConditionTree.outline_ofEntries,
          outlineEntries_outlineEntries]
    | comparison _ _ | expr _ | rows _ _ | resolved _ _ => rfl
  have htext' : w.isText = false := by rw [← isText_outline, ← h, isText_outline, htext]
  rw [houtline v htext, h, ← houtline w htext']

/-- Rules that are built from values with the same outline have the same outline. -/
theorem Rule.build_congr {v w : Value} (h : v.outline = w.outline) (htext : v.isText = false)
    (allow : Bool) (actions : List String) (subjects : List Subject) :
    view id Rule.outline (Rule.build allow actions subjects v) =
      view id Rule.outline (Rule.build allow actions subjects w) :=
  view_bind (Value.resolve_congr h htext) fun _ _ hcondition =>
    congrArg Except.ok (congrArg (Rule.mk allow actions subjects) hcondition)

/-! ## Flattening -/

namespace Dict

variable {d d' : Dict String Value}

theorem outline_insert (h : d.outline = d'.outline) (key : String) {v v' : Value}
    (hv : v.outline = v'.outline) : (d.insert key v).outline = (d'.insert key v').outline := by
  have hinsert : ∀ (v : Value) (entries : List (String × Value)),
      (Entries.insert key v entries).map Value.outlineEntry =
        Entries.insert key v.outline (entries.map Value.outlineEntry) := by
    intro v entries
    induction entries with
    | nil => rfl
    | cons entry rest ih =>
        obtain ⟨k, w⟩ := entry
        rw [Entries.insert]
        split
        next hk => simp [Entries.insert, Value.outlineEntry, hk]
        next hk => simp [Entries.insert, Value.outlineEntry, hk, ih]
  change (Entries.insert key v d.entries).map _ = (Entries.insert key v' d'.entries).map _
  rw [hinsert, hinsert, hv]
  exact congrArg _ h

theorem outline_insertAll (h : d.outline = d'.outline) {entries entries' : List (String × Value)}
    (hentries : entries.map Value.outlineEntry = entries'.map Value.outlineEntry) :
    (d.insertAll entries).outline = (d'.insertAll entries').outline := by
  refine foldl_congr_map (fun d d' entry entry' hd hentry => ?_) hentries h
  obtain ⟨hkey, hvalue⟩ := Prod.mk.inj hentry
  rw [hkey]
  exact outline_insert hd _ hvalue

end Dict

namespace Naming

variable {n : Naming} {entity name : String} {acc acc' : Dict String Value}

theorem enter_outline {literals : List (String × Value)}
    {below below' : String → Except SchemaError (Dict String Value)}
    (hbelow : ∀ target, view id Dict.outline (below target) = view id Dict.outline (below' target))
    (hacc : acc.outline = acc'.outline) :
    view id Dict.outline (n.enter entity name literals below acc) =
      view id Dict.outline
        (n.enter entity name (literals.map Value.outlineEntry) below' acc') := by
  unfold enter
  refine view_bind_same _ fun target => view_bind_same _ fun table => ?_
  refine view_bind (hbelow target) fun found found' hfound => congrArg Except.ok ?_
  refine Dict.outline_insertAll (Dict.outline_insertAll hacc ?_) hfound
  rw [List.map_map, List.map_map, List.map_map]
  refine List.map_congr_left fun entry _ => ?_
  simp [Value.outlineEntry, Value.outline_outline]

theorem nested_outline (tree : ConditionTree) (hacc : acc.outline = acc'.outline) :
    view id Dict.outline (n.nested tree entity acc) =
      view id Dict.outline (n.nested tree.outline entity acc') := by
  induction tree generalizing entity acc acc' with
  | nil => exact congrArg Except.ok hacc
  | literal name value rest ih => exact ih hacc
  | association name inner rest ihInner ihRest =>
      rw [ConditionTree.outline, nested, nested, ConditionTree.literals_outline]
      exact view_bind (enter_outline (fun target => ihInner rfl) hacc) fun _ _ h => ihRest h

/-- A condition is flattened to entries that have the outlines of those to which its outline is
flattened. -/
theorem flatten_outline (qualify : Bool) (tree : ConditionTree) :
    view id Dict.outline (n.flatten qualify entity tree) =
      view id Dict.outline (n.flatten qualify entity tree.outline) := by
  -- by induction for any entries before: those of the two runs agree in their outlines only
  have hinto : ∀ acc acc' : Dict String Value, acc.outline = acc'.outline →
      view id Dict.outline (n.flattenInto qualify entity tree acc) =
        view id Dict.outline (n.flattenInto qualify entity tree.outline acc') := by
    induction tree with
    | nil => exact fun _ _ hacc => congrArg Except.ok hacc
    | literal name value rest ih =>
        intro acc acc' hacc
        rw [ConditionTree.outline, flattenInto, flattenInto]
        refine view_bind_same _ fun key => ?_
        exact ih _ _ (Dict.outline_insert hacc key (Value.outline_outline value).symm)
    | association name inner rest _ ihRest =>
        intro acc acc' hacc
        rw [ConditionTree.outline, flattenInto, flattenInto, ConditionTree.literals_outline]
        exact view_bind (enter_outline (fun target => nested_outline inner rfl) hacc)
          fun _ _ h => ihRest _ _ h
  exact hinto ∅ ∅ rfl

end Naming

/-! ## Precedence -/

namespace Sql.Expr

theorem negated_outline (e : Expr) : view id outline e.negated = e.outline.negated := by
  unfold negated
  rw [negate?_outline]
  cases e.negate? <;> rfl

/-- An expression after one more, allowed beside it or taken from it. -/
theorem combined_outline (acc : Expr) (allow : Bool) (e : Expr) :
    view id outline (if allow then .ok (disjunction [e, acc])
      else do return conjunction [← e.negated, acc]) =
    if allow then .ok (disjunction [e.outline, acc.outline])
      else do return conjunction [← e.outline.negated, acc.outline] := by
  cases allow with
  | true => exact congrArg Except.ok (disjunction_outline [e, acc])
  | false =>
      simp only [Bool.false_eq_true, if_false]
      rw [← negated_outline]
      cases e.negated with
      | error error => rfl
      | ok opposite => exact congrArg Except.ok (conjunction_outline [opposite, acc])

/-- A step of precedence commutes with taking outlines. -/
theorem override_outline (acc : Expr) (allow : Bool) (condition : Option Expr) :
    view id outline (acc.override allow condition) =
      acc.outline.override allow (condition.map outline) := by
  cases condition with
  | none => rfl
  | some e =>
      have hcombined := combined_outline acc allow e
      cases acc with
      | const b =>
          cases b with
          | true =>
              cases allow with
              | true => rfl
              | false => exact negated_outline e
          | false => cases allow <;> rfl
      | compare r c rhs => cases rhs <;> exact hcombined
      | _ => exact hcombined

theorem overrideGuarded_outline (acc : Option Expr) (allow : Bool) (e : Expr) :
    view id outline (overrideGuarded acc allow e) =
      overrideGuarded (acc.map outline) allow e.outline := by
  cases acc with
  | none =>
      cases allow with
      | true => rfl
      | false => exact negated_outline e
  | some acc => exact combined_outline acc allow e

theorem guarded_outline (key : Column) (e : Expr) :
    (guarded key e).outline = guarded key e.outline :=
  conjunction_outline [.nullTest true key, e]

end Sql.Expr

/-! ## Expressions of rules -/

/-- An error with the outlines of the rules in it. -/
def QueryError.outline : QueryError → QueryError
  | unmergeable action subject rules conflict =>
      unmergeable action subject (rules.map Rule.outline) conflict
  | e => e

/-- Rules with the same outlines cannot be combined for reasons of the same outline. -/
theorem QueryError.outline_unmergeable {rules rules' : List Rule}
    (h : rules.map Rule.outline = rules'.map Rule.outline) (action : Value) (subject : String)
    (conflict : Conflict) : (unmergeable action subject rules conflict).outline =
      (unmergeable action subject rules' conflict).outline := by
  rw [outline, outline, h]

theorem Rule.text_outline (rule : Rule) : rule.outline.text = rule.text := by
  have hkind : rule.outline.condition.kind = rule.condition.kind := rule.condition.kind_outline
  rw [text, hkind]
  rfl

/-- A reason shows of the rules how many they are, and their texts. -/
theorem Conflict.message_congr {rules rules' : List Rule} (hlength : rules.length = rules'.length)
    (htext : Rule.listText rules = Rule.listText rules') (conflict : Conflict) (action : Value)
    (subject : String) :
    conflict.message action subject rules = conflict.message action subject rules' := by
  unfold message
  rw [hlength, htext]

/-- The text of an error shows no literal of a rule. -/
theorem QueryError.message_outline (e : QueryError) : e.outline.message = e.message := by
  cases e with
  | unmergeable action subject rules conflict =>
      refine Conflict.message_congr (by rw [List.length_map]) ?_ conflict action subject
      have htexts : (rules.map Rule.outline).map Rule.text = rules.map Rule.text := by
        rw [List.map_map]
        exact List.map_congr_left fun rule _ => rule.text_outline
      rw [Rule.listText, htexts, Rule.listText]
  | _ => rfl

section Lift

variable {α β : Type} {g : α → β}

theorem view_liftFilter {x y : Except FilterError α} (h : view id g x = view id g y) :
    view QueryError.outline g (liftFilter x) = view QueryError.outline g (liftFilter y) := by
  cases x <;> cases y <;> simp_all [view, liftFilter]

theorem view_liftLookup {x y : Except SchemaError α} (h : view id g x = view id g y) :
    view QueryError.outline g (liftLookup x) = view QueryError.outline g (liftLookup y) := by
  cases x <;> cases y <;> simp_all [view, liftLookup, liftSchema, liftFilter]

end Lift

/-- Entries with the same outlines are built into expressions with the same outline. -/
theorem Schema.mappingExpr_congr {s : Schema} {entity : String}
    {entries entries' : List (String × Value)}
    (h : entries.map Value.outlineEntry = entries'.map Value.outlineEntry) :
    view id Expr.outline (s.mappingExpr entity entries) =
      view id Expr.outline (s.mappingExpr entity entries') := by
  have hempty : entries.isEmpty = entries'.isEmpty := by
    simpa using congrArg List.isEmpty h
  unfold mappingExpr
  rw [hempty]
  split
  next => rfl
  next =>
    have hparts : view id (List.map Expr.outline) (entries.mapM (s.entryExpr entity)) =
        view id (List.map Expr.outline) (entries'.mapM (s.entryExpr entity)) := by
      refine view_mapM (fun entry entry' hentry => ?_) h
      obtain ⟨hkey, hvalue⟩ := Prod.mk.inj hentry
      unfold entryExpr
      rw [hkey]
      exact view_bind_same _ fun column => Value.leaf_congr column hvalue
    refine view_bind hparts fun parts parts' hparts => congrArg Except.ok ?_
    rw [Expr.conjunction_outline, Expr.conjunction_outline, hparts]

namespace Query

variable {q : Query} {rule rule' : Rule}

/-- The expression that the condition of a rule stands for, also if it is blank. -/
def conditionExpr (q : Query) (rule : Rule) (entity : String) : Except QueryError Expr := do
  liftFilter ((← q.ruleFilter rule entity).toExpr q.schema entity)

theorem ruleExpr_eq (q : Query) (rule : Rule) (entity : String) : q.ruleExpr rule entity =
    if rule.condition.isBlank then .ok none else some <$> q.conditionExpr rule entity := by
  unfold ruleExpr conditionExpr
  cases q.ruleFilter rule entity <;> rfl

/-- Conditions with the same outline stand for expressions with the same outline. -/
theorem conditionExpr_congr (h : rule.outline = rule'.outline) (entity : String) :
    view QueryError.outline Expr.outline (q.conditionExpr rule entity) =
      view QueryError.outline Expr.outline (q.conditionExpr rule' entity) := by
  have hmapping : ∀ allow actions subjects, ∀ tree : ConditionTree,
      q.conditionExpr ⟨allow, actions, subjects, .mapping tree⟩ entity =
        (do liftFilter (q.schema.mappingExpr entity
          (← liftLookup (q.schema.naming.flatten q.isProxy entity tree)).entries)) := by
    intro allow actions subjects tree
    change (do liftFilter ((← liftLookup (Filter.mapping <$>
      q.schema.naming.flatten q.isProxy entity tree)).toExpr q.schema entity)) = _
    cases q.schema.naming.flatten q.isProxy entity tree <;> rfl
  have houtline : ∀ rule : Rule,
      view QueryError.outline Expr.outline (q.conditionExpr rule entity) =
        view QueryError.outline Expr.outline (q.conditionExpr rule.outline entity) := by
    rintro ⟨allow, actions, subjects, condition⟩
    cases condition with
    | fragment body => rfl
    | scope body => rfl
    | mapping tree =>
        rw [Rule.outline, Condition.outline, hmapping, hmapping]
        exact view_bind (view_liftLookup (Naming.flatten_outline q.isProxy tree)) fun d d' hd =>
          view_liftFilter (Schema.mappingExpr_congr hd)
  rw [houtline, h, ← houtline]

theorem isBlank_congr (h : rule.outline = rule'.outline) :
    rule.condition.isBlank = rule'.condition.isBlank := by
  rw [← rule.condition.isBlank_outline, ← rule'.condition.isBlank_outline]
  exact congrArg (fun rule => rule.condition.isBlank) h

theorem ruleExpr_congr (h : rule.outline = rule'.outline) (entity : String) :
    view QueryError.outline (Option.map Expr.outline) (q.ruleExpr rule entity) =
      view QueryError.outline (Option.map Expr.outline) (q.ruleExpr rule' entity) := by
  rw [ruleExpr_eq, ruleExpr_eq, isBlank_congr h]
  split
  next => rfl
  next => exact view_map (conditionExpr_congr h entity) fun _ _ he => congrArg some he

end Query

end RowPolicy
