import RowPolicy.Proofs.Accessible
import RowPolicy.Proofs.Leaves
import RowPolicy.Proofs.SubjectDecision

/-!
# The statement of a proxy

The statement for a proxy outer-joins the subject of every rule and filters by the guarded
conditions of the rules, each of which mentions the columns of its rule's subject only, unless a
value mentions others.
-/

namespace RowPolicy

open Sql (Column Expr Join Select)
open Sql.Expr (Kept)

namespace Schema

variable {s : Schema} {name key : String} {c : Column} {subject : Entity}

theorem entity_eq_ok : s.entity name key = .ok subject ↔ s.entity? name = some subject := by
  unfold Schema.entity
  cases s.entity? name <;> simp

/-- The primary key of an entity is looked up as the column of its first key attribute. -/
theorem primaryKey_eq_ok : s.primaryKey name = .ok c ↔ ∃ e a, s.entity? name = some e ∧
    e.attributes.find? (·.isKey) = some a ∧ e.column a = c := by
  unfold primaryKey
  simp only [Outcome.bind_eq_ok, entity_eq_ok, exists_and_left]
  refine exists_congr fun e => and_congr_right fun _ => ?_
  cases e.attributes.find? (·.isKey) with
  | none => simp [throw, throwThe, MonadExceptOf.throw]
  | some a => simp [pure, Except.pure]

theorem table_eq_ok {table : String} (h : s.table name = .ok table) :
    ∃ e, s.entity? name = some e ∧ e.table = table := by
  unfold Schema.table at h
  simp only [Outcome.bind_eq_ok, Outcome.pure_eq_ok, entity_eq_ok] at h
  exact h

end Schema

namespace Query

variable {q : Query} {rule : Rule} {s : Select} {p e : Expr} {join : Join}

/-! ## The conditions of the rules -/

section Guarded

variable (hproxy : q.isProxy = true)
  (hplain : ∀ e ∈ q.schema.entities, splitKey? e.table = none)
  (hmergeable : rule.condition.isMergeable = true)
  (hnil : rule.condition.associations = .nil)
include hproxy hplain hmergeable hnil

/-- On a proxy the expression of a rule keeps to the table of the subject, because all names are put
under that table, but for the tables that its values mention. -/
theorem subjectExpr_keepsTo {name : String} {subject : Entity} {condition : Option Expr}
    (hsubject : q.schema.entity? name = some subject)
    (h : q.ruleExpr rule name = .ok condition) :
    ∀ e ∈ condition, e.KeepsTo [subject.table] rule.ComparesData rule.mentioned := by
  obtain ⟨tree, htree⟩ := Condition.exists_tree hmergeable
  rw [htree] at hnil
  refine ruleExpr_kept (Sql.Expr.kept_keepsTo _ _ _) htree h
    fun flat hflat entry hentry part hpart => ?_
  obtain ⟨leaf, hleaf, hkey, hvalue⟩ := Naming.exists_leaf hflat hentry
  obtain ⟨c, hcolumn, hpart⟩ := Schema.entryExpr_eq_ok.mp hpart
  have hlisted := (Schema.lists_of_entity? hsubject).mem
  have hreference : entry.1 = qualifiedKey subject.table leaf.name := by
    have hpath : leaf.path = [] := ConditionTree.path_eq_nil hnil hleaf
    rw [hproxy, Naming.leafKey, hpath] at hkey
    simp only [List.getLast?_nil, Naming.ownKey, if_true, Outcome.bind_eq_ok,
      Outcome.pure_eq_ok] at hkey
    obtain ⟨table, htable, hkey⟩ := hkey
    obtain ⟨subject', hsubject', rfl⟩ := Schema.table_eq_ok htable
    obtain rfl := Option.some.inj (hsubject.symm.trans hsubject')
    exact hkey.symm
  have htable : c.table = subject.table :=
    Schema.Refers.column_table hplain hsubject (Or.inr ⟨hlisted, hreference⟩) hcolumn
  have hmentioned : leaf.value.mentioned ⊆ rule.mentioned := by
    rw [Rule.mentioned, htree]
    exact ConditionTree.mentioned_subset hleaf
  exact (Value.leaf_keepsTo hpart).mono (by simp [htable])
    (fun hdata => hvalue ▸ hdata tree htree leaf hleaf) (hvalue ▸ hmentioned)

/-- A guarded condition keeps to the table of the rule's subject, but for the tables that the values
of the rule mention. -/
theorem guardedExpr_keepsTo (h : q.guardedExpr rule = .ok e) :
    ∃ name subject, q.proxySubject rule = .ok name ∧ q.schema.entity? name = some subject ∧
      e.KeepsTo [subject.table] rule.ComparesData rule.mentioned := by
  obtain ⟨name, key, condition, hname, hkey, hexpr, rfl⟩ := guardedExpr_cases h
  obtain ⟨subject, a, hsubject, _, rfl⟩ := Schema.primaryKey_eq_ok.mp hkey
  have hkept := Sql.Expr.kept_keepsTo [subject.table] rule.ComparesData rule.mentioned
  have hcondition := subjectExpr_keepsTo hproxy hplain hmergeable hnil hsubject hexpr
  refine ⟨name, subject, hname, hsubject, hkept.guarded ?_ ?_⟩
  · exact Sql.Expr.keepsTo_of_tables trivial (fun _ => rfl)
      (by simp [Sql.Expr.tables, Entity.column])
  · cases condition with
    | none => exact hkept.const true
    | some e => exact hcondition e rfl

end Guarded

/-- What holds of the guarded condition of every rule holds of their combination, if
combining conditions keeps it. -/
theorem subjectPredicate_kept {P : Expr → Prop} (hP : Kept P) (h : q.subjectPredicate = .ok p)
    (hrules : ∀ rule ∈ q.rules, ∀ e, q.guardedExpr rule = .ok e → P e) : P p := by
  have hcombined : (do return (← q.combinedGuarded).getD (.const false)) = .ok p → P p := by
    intro h
    simp only [Outcome.bind_eq_ok, Outcome.pure_eq_ok] at h
    obtain ⟨acc, hacc, rfl⟩ := h
    suffices hfold : ∀ e ∈ acc, P e by
      cases acc with
      | none => exact hP.const false
      | some e => exact hfold e rfl
    clear h
    rw [combinedGuarded_eq] at hacc
    generalize q.rules = rules at hacc hrules
    induction rules generalizing acc with
    | nil =>
        obtain rfl := Outcome.pure_eq_ok.mp hacc
        simp
    | cons rule rest ih =>
        rw [List.foldrM_cons, Outcome.bind_eq_ok] at hacc
        obtain ⟨before, hbefore, hstep⟩ := hacc
        simp only [Outcome.bind_eq_ok, Outcome.map_eq_ok, liftFilter_eq_ok] at hstep
        obtain ⟨guarded, hguarded, e, he, rfl⟩ := hstep
        simp only [List.mem_cons, forall_eq_or_imp] at hrules
        have hall := ih before hbefore hrules.2
        simpa using hP.overrideGuarded hall (hrules.1 guarded hguarded) he
  unfold subjectPredicate at h
  dsimp only at h
  split at h
  next rule hlist =>
    split at h
    next => exact hrules rule (by simp [hlist]) p h
    next => exact hcombined h
  next => exact hcombined h

/-! ## The joins -/

/-- Whether a join is that of a proxy to the subject of a rule. -/
def JoinsSubject (q : Query) (rule : Rule) (join : Join) : Prop :=
  ∃ field typeColumn idColumn name, q.proxy? = some field ∧
    q.schema.column q.entity field.typeColumn = .ok typeColumn ∧
    q.schema.column q.entity field.idColumn = .ok idColumn ∧
    q.proxySubject rule = .ok name ∧ q.subjectJoin typeColumn idColumn name = .ok join

theorem subjectJoin_eq_ok {typeColumn idColumn : Column} {name : String}
    (h : q.subjectJoin typeColumn idColumn name = .ok join) :
    ∃ subject a, q.schema.entity? name = some subject ∧
      subject.attributes.find? (·.isKey) = some a ∧
      join = .outer subject (.and (.compare .eq typeColumn (.value (.str name)))
        (.compare .eq idColumn (.column (subject.column a)))) := by
  unfold subjectJoin at h
  simp only [Outcome.bind_eq_ok, Outcome.pure_eq_ok, liftLookup_eq_ok,
    Schema.entity_eq_ok, Schema.primaryKey_eq_ok] at h
  obtain ⟨_, ⟨subject, a, hsubject, ha, rfl⟩, subject', hsubject', rfl⟩ := h
  obtain rfl := Option.some.inj (hsubject.symm.trans hsubject')
  exact ⟨subject, a, hsubject, ha, rfl⟩

theorem JoinsSubject.isOuter (h : q.JoinsSubject rule join) :
    ∃ subject on, join = .outer subject on ∧ subject ∈ q.schema.entities := by
  obtain ⟨_, _, _, _, _, _, _, _, hjoin⟩ := h
  obtain ⟨subject, _, hsubject, _, rfl⟩ := subjectJoin_eq_ok hjoin
  exact ⟨subject, _, rfl, (Schema.lists_of_entity? hsubject).mem⟩

theorem refuse_eq_ok {rules : List Rule} {conflict : Conflict}
    (h : q.refuse rules conflict = .ok ()) : rules = [] := by
  unfold refuse at h
  split at h
  next hempty => exact List.isEmpty_iff.mp hempty
  next =>
    obtain ⟨_, _, hthrow⟩ := Outcome.bind_eq_ok.mp h
    cases hthrow

/-- A statement that outer-joins the subjects of the rules of a query, which are mappings
without associations, and is filtered by their guarded conditions. -/
structure IsProxied (q : Query) (s : Select) (p : Expr) : Prop where
  isProxy : q.isProxy = true
  entity_eq : q.schema.entity? q.entity = some s.entity
  mergeable : ∀ rule ∈ q.rules, rule.condition.isMergeable = true
  associations_eq : ∀ rule ∈ q.rules, rule.condition.associations = .nil
  predicate_eq : q.subjectPredicate = .ok p
  filter_eq : s.filter = some p
  distinct_eq : s.distinct = false
  mem_joins : ∀ join, join ∈ s.joins ↔ ∃ rule ∈ q.rules, q.JoinsSubject rule join
  exists_join : ∀ rule ∈ q.rules, ∃ join, q.JoinsSubject rule join

/-- The statement for a proxy is such a statement. -/
theorem exists_isProxied {field : ProxyField} (hproxy : q.proxy? = some field)
    (h : q.proxyStatement field = .ok s) : ∃ p, q.IsProxied s p := by
  unfold proxyStatement allRows at h
  simp only [Outcome.bind_eq_ok, Outcome.pure_eq_ok, liftLookup_eq_ok] at h
  obtain ⟨_, hmergeable, _, hnil, typeColumn, htype, idColumn, hid, base, hbase, names, hnames,
    joins, hjoins, p, hp, rfl⟩ := h
  have hmergeable := List.filter_eq_nil_iff.mp (refuse_eq_ok hmergeable)
  have hnil := List.filter_eq_nil_iff.mp (refuse_eq_ok hnil)
  have hsubjects : ∀ name, name ∈ names.eraseDups ↔
      ∃ rule ∈ q.rules, q.proxySubject rule = .ok name := by
    intro name
    rw [List.mem_eraseDups]
    constructor
    · exact Outcome.exists_of_mem_mapM hnames
    · rintro ⟨rule, hrule, hname⟩
      obtain ⟨name', hmem, hname'⟩ :=
        Outcome.exists_of_mem_left (Outcome.mapM_eq_ok.mp hnames) hrule
      exact Except.ok.inj (hname'.symm.trans hname) ▸ hmem
  cases hentity : q.schema.entity? q.entity with
  | none => simp [hentity] at hbase
  | some entity =>
      obtain rfl : Select.ofEntity entity = base := by simpa [hentity] using hbase
      refine ⟨p, ?_⟩
      constructor
      case isProxy => simp [isProxy, hproxy]
      case entity_eq => exact hentity
      case mergeable => exact fun rule hrule => by simpa using hmergeable rule hrule
      case associations_eq =>
        intro rule hrule
        have hempty : rule.condition.associations.isEmpty = true := by
          simpa using hnil rule hrule
        cases htree : rule.condition.associations with
        | nil => rfl
        | node name inner rest => simp [htree, JoinTree.isEmpty] at hempty
      case predicate_eq => exact hp
      case filter_eq => rfl
      case distinct_eq => rfl
      case mem_joins =>
        intro join
        constructor
        · intro hjoin
          obtain ⟨name, hname, hjoin⟩ := Outcome.exists_of_mem_mapM hjoins hjoin
          obtain ⟨rule, hrule, hsubject⟩ := (hsubjects name).mp hname
          exact ⟨rule, hrule, field, typeColumn, idColumn, name, hproxy, htype, hid, hsubject,
            hjoin⟩
        · rintro ⟨rule, hrule, field', typeColumn', idColumn', name, hproxy', htype', hid',
            hsubject, hjoin⟩
          obtain rfl := Option.some.inj (hproxy.symm.trans hproxy')
          obtain rfl := Except.ok.inj (htype.symm.trans htype')
          obtain rfl := Except.ok.inj (hid.symm.trans hid')
          obtain ⟨join', hmem, hjoin'⟩ := Outcome.exists_of_mem_left
            (Outcome.mapM_eq_ok.mp hjoins) ((hsubjects name).mpr ⟨rule, hrule, hsubject⟩)
          exact Except.ok.inj (hjoin'.symm.trans hjoin) ▸ hmem
      case exists_join =>
        intro rule hrule
        obtain ⟨name, hmem, hname⟩ :=
          Outcome.exists_of_mem_left (Outcome.mapM_eq_ok.mp hnames) hrule
        obtain ⟨join, _, hjoin⟩ := Outcome.exists_of_mem_left
          (Outcome.mapM_eq_ok.mp hjoins) ((hsubjects name).mpr ⟨rule, hrule, hname⟩)
        exact ⟨join, field, typeColumn, idColumn, name, hproxy, htype, hid, hname, hjoin⟩

/-- Without a scope the statement for the rules on a proxy is such a statement. -/
theorem exists_proxyStatement {field : ProxyField} (hproxy : q.proxy? = some field)
    (hne : q.rules ≠ []) (hscopes : q.scopes = []) {records : Records}
    (h : q.records = .ok records) :
    ∃ s p, records.statement = .select s ∧ q.IsProxied s p := by
  have hempty : q.rules.isEmpty = false := by simpa using hne
  rw [records_of_scopes hscopes, hproxy, hempty] at h
  obtain ⟨s, hs, hrecords⟩ := Outcome.bind_eq_ok.mp h
  obtain rfl := Outcome.pure_eq_ok.mp hrecords
  obtain ⟨p, hproxied⟩ := exists_isProxied hproxy hs
  exact ⟨s, p, rfl, hproxied⟩

namespace IsProxied

theorem isOuter (h : q.IsProxied s p) : ∀ join ∈ s.joins,
    ∃ subject on, join = .outer subject on ∧ subject ∈ q.schema.entities := by
  intro join hjoin
  obtain ⟨rule, _, hjoins⟩ := (h.mem_joins join).mp hjoin
  exact hjoins.isOuter

/-- No join to a subject repeats another one, so all of them are carried out. -/
theorem distinctJoins_eq (h : q.IsProxied s p) : s.distinctJoins = s.joins := by
  have houter := h.isOuter
  unfold Select.distinctJoins
  generalize s.joins = joins at houter
  induction joins with
  | nil => rfl
  | cons join rest ih =>
      simp only [List.mem_cons, forall_eq_or_imp] at houter
      obtain ⟨⟨subject, on, rfl, _⟩, hrest⟩ := houter
      have hfilter : rest.filter (fun b => b.repeats (.outer subject on) = false) = rest := by
        rw [List.filter_eq_self]
        intro join hjoin
        obtain ⟨subject', on', rfl, _⟩ := hrest join hjoin
        rfl
      rw [List.eraseDupsBy_cons, hfilter, ih hrest]

/-- The filter keeps to the tables of the subjects that are joined, but for those that the values of
the rules mention. -/
theorem filter_keepsTo (h : q.IsProxied s p)
    (hplain : ∀ e ∈ q.schema.entities, splitKey? e.table = none) :
    p.KeepsTo (s.joins.map Join.table) (∀ rule ∈ q.rules, rule.ComparesData)
      (q.rules.flatMap Rule.mentioned) := by
  refine subjectPredicate_kept (Sql.Expr.kept_keepsTo _ _ _) h.predicate_eq
    fun rule hrule e he => ?_
  obtain ⟨name, subject, hname, hsubject, hpart⟩ := guardedExpr_keepsTo h.isProxy hplain
    (h.mergeable rule hrule) (h.associations_eq rule hrule) he
  have hjoined : subject.table ∈ s.joins.map Join.table := by
    obtain ⟨join, hjoins⟩ := h.exists_join rule hrule
    have hmem : join ∈ s.joins := (h.mem_joins join).mpr ⟨rule, hrule, hjoins⟩
    obtain ⟨_, _, _, name', _, _, _, hname', hjoin⟩ := hjoins
    obtain rfl := Except.ok.inj (hname.symm.trans hname')
    obtain ⟨subject', _, hsubject', _, rfl⟩ := subjectJoin_eq_ok hjoin
    obtain rfl := Option.some.inj (hsubject.symm.trans hsubject')
    exact List.mem_map.mpr ⟨_, hmem, rfl⟩
  exact hpart.mono (by simpa using hjoined) (fun hdata => hdata rule hrule)
    fun t ht => List.mem_flatMap.mpr ⟨rule, hrule, ht⟩

/-- Outer joins of subjects can be carried out if they refer to known tables. -/
theorem canJoinAll (h : q.IsProxied s p)
    (hjoined : Select.notJoined? [s.entity.table] s.distinctJoins = none) :
    q.schema.CanJoinAll [s.entity.table] s.distinctJoins := by
  have houter := h.isOuter
  rw [h.distinctJoins_eq] at hjoined ⊢
  generalize s.joins = joins at houter hjoined
  generalize [s.entity.table] = known at hjoined ⊢
  induction joins generalizing known with
  | nil => trivial
  | cons join rest ih =>
      simp only [List.mem_cons, forall_eq_or_imp] at houter
      obtain ⟨⟨subject, on, rfl, hsubject⟩, hrest⟩ := houter
      unfold Select.notJoined? at hjoined
      obtain ⟨hnone, hlater⟩ := Option.or_eq_none_iff.mp hjoined
      refine ⟨⟨hsubject, fun t ht => ?_⟩, ih hrest _ hlater⟩
      simpa [or_iff_not_imp_left] using List.find?_eq_none.mp hnone t ht

end IsProxied

end Query

end RowPolicy
