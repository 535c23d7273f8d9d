import RowPolicy.Proofs.Decision
import RowPolicy.Proofs.Leaves

/-!
# What the condition of a rule means

On chosen rows that follow its associations the expression built for a rule is true exactly
if the rule's condition holds by the choice. It keeps to the tables to which the associations
lead, unless its values mention others.
-/

namespace RowPolicy

open Sql (Assignment Column Database Expr Row)

namespace Schema

variable {s : Schema} {entity key name : String} {e target : Entity} {c : Column}
  {choice : String → Row}

theorem column_eq_ok : s.column entity key = .ok c ↔ ∃ e, s.entity? entity = some e ∧
    (match splitKey? key with
      | none => (e.attribute? key).map e.column
      | some (table, rest) => s.qualifiedColumn? table rest) = some c := by
  unfold column Schema.entity
  cases hentity : s.entity? entity with
  | none => simp [bind, Except.bind]
  | some e =>
      simp only [bind, Except.bind, Option.some.injEq, exists_eq_left']
      rcases splitKey? key with _ | ⟨table, rest⟩
      · cases (e.attribute? key).map e.column <;>
          simp [pure, Except.pure, throw, throwThe, MonadExceptOf.throw]
      · cases hfound : s.qualifiedColumn? table rest <;>
          simp [hfound, pure, Except.pure, throw, throwThe, MonadExceptOf.throw]

/-- Whether a key, looked up on an entity, refers to what a name stands for on an entity:
it is a name of the entity itself, or it says the table. -/
def Refers (s : Schema) (e : Entity) (key : String) (target : Entity) (name : String) : Prop :=
  (target = e ∧ key = name ∧ splitKey? name = none) ∨
    (target ∈ s.entities ∧ key = qualifiedKey target.table name)

/-- Where no table has a dot in its name, a reference leads to a column of its table. -/
theorem Refers.column_table (hplain : ∀ e ∈ s.entities, splitKey? e.table = none)
    (hentity : s.entity? entity = some e) (hrefers : s.Refers e key target name)
    (h : s.column entity key = .ok c) : c.table = target.table := by
  obtain ⟨e', hentity', hfound⟩ := column_eq_ok.mp h
  obtain rfl := Option.some.inj (hentity.symm.trans hentity')
  rcases hrefers with ⟨rfl, rfl, hname⟩ | ⟨htarget, rfl⟩
  · rw [hname] at hfound
    obtain ⟨a, _, rfl⟩ := Option.map_eq_some_iff.mp hfound
    rfl
  · rw [splitKey?_qualifiedKey (hplain _ htarget)] at hfound
    exact qualifiedColumn?_table htarget hfound

theorem Refers.qualifiedColumn? (hs : s.WellFormed) (hentity : s.entity? entity = some e)
    (hrefers : s.Refers e key target name) (h : s.column entity key = .ok c) :
    s.qualifiedColumn? target.table name = some c := by
  obtain ⟨e', hentity', hfound⟩ := column_eq_ok.mp h
  obtain rfl := Option.some.inj (hentity.symm.trans hentity')
  have hmem := (lists_of_entity? hentity).mem
  rcases hrefers with ⟨rfl, rfl, hplain⟩ | ⟨htarget, rfl⟩
  · rw [hplain] at hfound
    obtain ⟨a, ha, rfl⟩ := Option.map_eq_some_iff.mp hfound
    exact hs.qualifiedColumn?_of_attribute? hmem ha
  · rwa [splitKey?_qualifiedKey (hs.table_plain _ htarget)] at hfound

/-- An entry is true on chosen rows if the literal entry to which it refers holds of the
chosen row. -/
theorem Refers.entryTrue_iff (hs : s.WellFormed) (hentity : s.entity? entity = some e)
    (hrefers : s.Refers e key target name) {value : Value} (hdata : value.isData = true)
    {part : Expr} (hpart : s.entryExpr entity (key, value) = .ok part) :
    s.EntryTrue (.ofRows choice) entity (key, value) ↔
      s.LiteralHolds target (name, value) (choice target.table) := by
  obtain ⟨c, hcolumn, hleaf⟩ := entryExpr_eq_ok.mp hpart
  have hqualified := hrefers.qualifiedColumn? hs hentity hcolumn
  have htable := hrefers.column_table hs.table_plain hentity hcolumn
  have htables := ((Value.leaf_keepsTo hleaf).of_data hdata).2
  have heval : part.eval (.ofRows choice) =
      part.eval fun c => choice target.table c.name := by
    refine Expr.eval_congr part fun d hd => ?_
    have hd : d.table = c.table := by simpa using htables d.table hd
    rw [Assignment.ofRows, hd, htable]
  constructor
  · rintro ⟨part', hpart', htrue⟩
    obtain rfl := Except.ok.inj (hpart.symm.trans hpart')
    exact ⟨c, part, hqualified, hleaf, heval ▸ htrue⟩
  · rintro ⟨c', part', hqualified', hleaf', htrue⟩
    obtain rfl := Option.some.inj (hqualified.symm.trans hqualified')
    obtain rfl := Except.ok.inj (hleaf.symm.trans hleaf')
    exact ⟨part, hpart, heval ▸ htrue⟩

end Schema

namespace ConditionTree

variable {s : Schema} {e : Entity} {tree : ConditionTree} {entry : String × Value}

/-- Every entry that flattening adds refers to a literal entry of the condition. -/
theorem exists_literal (he : s.Lists e) (htree : tree.hasPlainKeysAndData = true)
    (h : entry ∈ tree.literals ∨ tree.Contributes s e entry) :
    ∃ path target name, tree.HasLiteral s target (name, entry.2) e path ∧
      s.Refers e entry.1 target name ∧ entry.2.isData = true := by
  rcases h with hliteral | ⟨path, target, name, hpath, hliteral, hkey⟩
  · have hroot := (hasLiteral_nil (s := s) (e := e)).mpr ⟨rfl, hliteral⟩
    exact ⟨[], e, entry.1, hroot, Or.inl ⟨rfl, rfl, (hroot.plain_and_data htree).1⟩,
      (hroot.plain_and_data htree).2⟩
  · exact ⟨path, target, name, hliteral, Or.inr ⟨(hliteral.lists he).mem, hkey⟩,
      (hliteral.plain_and_data htree).2⟩

/-- Every literal entry of a condition is one to which an added entry refers. -/
theorem exists_entry {path : List String} {target : Entity} {name : String} {value : Value}
    (he : s.Lists e) (htree : tree.hasPlainKeysAndData = true)
    (h : tree.HasLiteral s target (name, value) e path) :
    ∃ key, s.Refers e key target name ∧
      ((key, value) ∈ tree.literals ∨ tree.Contributes s e (key, value)) := by
  by_cases hpath : path = []
  · subst hpath
    obtain ⟨rfl, hliteral⟩ := hasLiteral_nil.mp h
    exact ⟨name, Or.inl ⟨rfl, rfl, (h.plain_and_data htree).1⟩, Or.inl hliteral⟩
  · exact ⟨_, Or.inr ⟨(h.lists he).mem, rfl⟩,
      Or.inr ⟨path, target, name, hpath, h, rfl⟩⟩

end ConditionTree

namespace Query

variable {q : Query} {rule : Rule} {e : Entity} {tree : ConditionTree}
  {condition : Option Expr} {db : Database} {choice : String → Row}

section Rule

variable (hs : q.schema.WellFormed) (hproxy : q.isProxy = false)
  (hentity : q.schema.entity? q.entity = some e) (hmapping : rule.condition = .mapping tree)
  (htree : tree.hasPlainKeysAndData = true) (hexpr : q.ruleExpr rule q.entity = .ok condition)
include hproxy hentity hmapping hexpr

theorem isResolved_of_ruleExpr : tree.associations.IsResolved q.schema e := by
  rcases ruleExpr_cases hmapping hexpr with ⟨hempty, _⟩ | ⟨_, flat, _, hflat, _⟩
  · cases tree with
    | nil => trivial
    | literal name value rest => cases hempty
    | association name inner rest => cases hempty
  · rw [hproxy] at hflat
    exact (Naming.flattenInto_extends hentity hflat).1

/-- The expression of a rule keeps to the tables of the entity and of the joins to which the rule's
associations lead, but for the tables that its values mention. -/
theorem ruleExpr_keepsTo (hplain : ∀ e ∈ q.schema.entities, splitKey? e.table = none)
    (hkeys : tree.HasPlainKeys) {tables : List String} (hroot : e.table ∈ tables)
    (htables : ∀ path join, tree.associations.Leads q.schema join e path → join.table ∈ tables) :
    ∀ expr ∈ condition, expr.KeepsTo tables tree.ComparesData tree.mentioned := by
  have he := Schema.lists_of_entity? hentity
  refine ruleExpr_kept (Expr.kept_keepsTo tables _ _) hmapping hexpr ?_
  rintro flat hflat entry hentry part hpart
  obtain ⟨leaf, hmem, _, hvalue⟩ := Naming.exists_leaf hflat hentry
  obtain ⟨c, hcolumn, hleaf⟩ := Schema.entryExpr_eq_ok.mp hpart
  have htable : c.table ∈ tables := by
    rw [hproxy] at hflat
    rcases (Naming.flattenInto_extends hentity hflat).2.of_mem hentry with
      hliteral | ⟨path, target, name, _, hliteral, hkey⟩
    · have hrefers : q.schema.Refers e entry.1 e entry.1 := Or.inl ⟨rfl, rfl, hkeys entry hliteral⟩
      exact hrefers.column_table hplain hentity hcolumn ▸ hroot
    · have hrefers : q.schema.Refers e entry.1 target name :=
        Or.inr ⟨(hliteral.lists he).mem, hkey⟩
      rw [hrefers.column_table hplain hentity hcolumn]
      rcases hliteral.exists_leads with ⟨_, rfl⟩ | ⟨source, r, hleads⟩
      · exact hroot
      · exact htables _ _ hleads
  exact (Value.leaf_keepsTo hleaf).mono (by simpa using htable)
    (fun hdata => hvalue ▸ hdata leaf hmem) (hvalue ▸ ConditionTree.mentioned_subset hmem)

include htree

include hs

/-- The expression of a rule is true on chosen rows that follow the rule's associations if
the rule's condition holds by the choice. -/
theorem ruleTruth_ofRows (hown : tree.associations.HasOwnTables q.schema e)
    (hfollowed : tree.associations.FollowedBy q.schema db choice e) :
    q.ruleTruth (.ofRows choice) q.entity rule = .yes ↔ tree.HoldsBy q.schema db choice e := by
  rw [ruleTruth_of_ruleExpr hexpr]
  rcases ruleExpr_cases hmapping hexpr with ⟨hempty, rfl⟩ | ⟨_, flat, expr, hflat, hmap, rfl⟩
  · cases tree with
    | nil => exact iff_of_true rfl trivial
    | literal name value rest => cases hempty
    | association name inner rest => cases hempty
  · rw [hproxy] at hflat
    have he := Schema.lists_of_entity? hentity
    have hflatten : ∀ entry, entry ∈ flat.entries ↔
        entry ∈ tree.literals ∨ tree.Contributes q.schema e entry :=
      fun _ => Naming.mem_flatten hs hentity htree hown hflat
    rw [Option.elim, Schema.eval_mappingExpr hmap, ConditionTree.holdsBy_iff hfollowed]
    constructor
    · rintro hall path target ⟨name, value⟩ hliteral
      obtain ⟨key, hrefers, hentry⟩ := ConditionTree.exists_entry he htree hliteral
      rw [← hflatten] at hentry
      obtain ⟨part, hpart⟩ := Schema.exists_mappingExpr_iff.mp ⟨_, hmap⟩ _ hentry
      exact (hrefers.entryTrue_iff hs hentity (hliteral.plain_and_data htree).2 hpart).mp
        (hall _ hentry)
    · rintro hall ⟨key, value⟩ hentry
      obtain ⟨part, hpart⟩ := Schema.exists_mappingExpr_iff.mp ⟨_, hmap⟩ _ hentry
      obtain ⟨path, target, name, hliteral, hrefers, hdata⟩ :=
        ConditionTree.exists_literal he htree ((hflatten _).mp hentry)
      exact (hrefers.entryTrue_iff hs hentity hdata hpart).mpr (hall path target _ hliteral)

end Rule

end Query

end RowPolicy
