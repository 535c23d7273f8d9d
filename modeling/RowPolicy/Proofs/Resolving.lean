import RowPolicy.Proofs.Accessible
import RowPolicy.Proofs.Leaves
import RowPolicy.Proofs.Multiplicity

/-!
# Conditions that resolve

Where the associations of all rules resolve, the joins of a query can be built, and the statement
drops repetitions exactly if one of them follows a relationship to many. Where in addition each
literal entry can be built by itself, so can the filter; if the joins have tables of their own no
entry is lost, and each has to be built.
-/

namespace RowPolicy

open Sql (Expr Join Select)

/-! ## Merged trees -/

namespace JoinTree

variable {s : Schema} {e : Entity}

theorem isResolved_graft {name : String} {inner : JoinTree} {change : JoinTree → JoinTree}
    (hchange : ∀ known e, known.IsResolved s e → inner.IsResolved s e →
      (change known).IsResolved s e) {tree : JoinTree} (htree : tree.IsResolved s e)
    (hinner : (node name inner nil).IsResolved s e) : (tree.graft name change).IsResolved s e := by
  induction tree with
  | nil =>
      obtain ⟨⟨r, target, hresolves, hbelow⟩, _⟩ := hinner
      exact ⟨⟨r, target, hresolves, hchange nil target trivial hbelow⟩, trivial⟩
  | node n below rest _ ihRest =>
      obtain ⟨⟨r, target, hresolves, hbelow⟩, hrest⟩ := htree
      unfold graft
      split
      next hname =>
        -- the name is known, so what is grafted resolves on the same entity as what is there
        subst hname
        obtain ⟨⟨r', target', hresolves', hinner⟩, _⟩ := hinner
        obtain ⟨rfl, rfl⟩ := hresolves.unique hresolves'
        exact ⟨⟨r, target, hresolves, hchange below target hbelow hinner⟩, hrest⟩
      next => exact ⟨⟨r, target, hresolves, hbelow⟩, ihRest hrest⟩

theorem isResolved_merge {base tree : JoinTree} (hbase : base.IsResolved s e)
    (htree : tree.IsResolved s e) : (base.merge tree).IsResolved s e := by
  induction tree generalizing base e with
  | nil => rwa [merge_nil]
  | node name inner rest ihInner ihRest =>
      obtain ⟨hhere, hrest⟩ := htree
      unfold merge
      exact ihRest (isResolved_graft (fun _ _ hknown hinner => ihInner hknown hinner) hbase
        ⟨hhere, trivial⟩) hrest

theorem isResolved_mergeAll {trees : List JoinTree} (h : ∀ tree ∈ trees, tree.IsResolved s e) :
    (mergeAll trees).IsResolved s e := by
  have hfold : ∀ base : JoinTree, base.IsResolved s e →
      (trees.foldl merge base).IsResolved s e := by
    induction trees with
    | nil => exact fun _ hbase => hbase
    | cons tree rest ih =>
        obtain ⟨htree, hrest⟩ := List.forall_mem_cons.mp h
        exact fun base hbase => ih hrest _ (isResolved_merge hbase htree)
  exact hfold nil trivial

/-- Whether a tree leads to a join along a relationship to many. -/
def CrossesMany (s : Schema) (tree : JoinTree) (e : Entity) : Prop :=
  ∃ join, (∃ path, tree.Leads s join e path) ∧ ¬ join.IsToOne

theorem not_crossesMany_nil : ¬ nil.CrossesMany s e := by
  rintro ⟨join, ⟨path, hleads⟩, _⟩
  exact hleads

/-- A tree crosses to many rows at its first name, below it or beside it. -/
theorem crossesMany_node {name : String} {inner rest : JoinTree} {r : Relationship}
    {target : Entity} (hresolves : s.Resolves e name r target) :
    (node name inner rest).CrossesMany s e ↔
      r.toMany = true ∨ inner.CrossesMany s target ∨ rest.CrossesMany s e := by
  have hhere : (∃ join, join = Join.related e r target ∧ ¬ join.IsToOne) ↔ r.toMany = true := by
    simp [Join.IsToOne]
  unfold CrossesMany
  simp only [Schema.exists_leads_node hresolves, or_and_right, exists_or]
  rw [hhere]

end JoinTree

/-! ## Joining along a list -/

namespace Schema

variable {s : Schema} {entity : String} {e : Entity} {list : JoinList}

theorem Resolves.isToMany_eq {name : String} {r : Relationship} {target : Entity}
    (h : s.Resolves e name r target) (hentity : s.entity? entity = some e) :
    s.isToMany entity name = .ok r.toMany := by
  simp [isToMany, relationship, Schema.entity, hentity, h.1, bind, Except.bind, pure, Except.pure]

theorem Resolves.targetTable_eq {name : String} {r : Relationship} {target : Entity}
    (h : s.Resolves e name r target) (hentity : s.entity? entity = some e) :
    s.targetTable entity name = .ok target.table := by
  have htarget := target_eq_ok.mpr ⟨e, r, hentity, h.1, rfl⟩
  have htable : s.table r.target = .ok target.table := by
    simp [table, Schema.entity, h.2, bind, Except.bind, pure, Except.pure]
  exact Outcome.bind_eq_ok.mpr ⟨r.target, htarget, htable⟩

/-- Joining along a list whose names resolve succeeds. -/
theorem exists_applyJoins (hentity : s.entity? entity = some e)
    (hresolved : list.toTree.IsResolved s e) (statement : Select) :
    ∃ joined, s.applyJoins list entity statement = .ok joined := by
  induction list generalizing entity e statement with
  | nil => exact ⟨statement, rfl⟩
  | name name rest ih =>
      obtain ⟨⟨r, target, hresolves, _⟩, hrest⟩ := hresolved
      have hjoin := joinAlong_eq_ok.mpr ⟨e, r, target, hentity, hresolves, rfl⟩
      obtain ⟨joined, hjoined⟩ := ih hentity hrest (statement.join (.related e r target))
      exact ⟨joined, Outcome.bind_eq_ok.mpr ⟨_, hjoin, hjoined⟩⟩
  | path name inner rest ihInner ihRest =>
      obtain ⟨⟨r, target, hresolves, hinner⟩, hrest⟩ := hresolved
      have hjoin := joinAlong_eq_ok.mpr ⟨e, r, target, hentity, hresolves, rfl⟩
      have htarget := target_eq_ok.mpr ⟨e, r, hentity, hresolves.1, rfl⟩
      obtain ⟨middle, hmiddle⟩ :=
        ihInner hresolves.2 hinner (statement.join (.related e r target))
      obtain ⟨joined, hjoined⟩ := ihRest hentity hrest middle
      refine ⟨joined, ?_⟩
      simp only [applyJoins, Outcome.bind_eq_ok]
      exact ⟨_, hjoin, _, htarget, middle, hmiddle, hjoined⟩

/-- A list whose names resolve crosses to many rows if its tree does. -/
theorem exists_crossesMany (hentity : s.entity? entity = some e)
    (hresolved : list.toTree.IsResolved s e) :
    ∃ many, s.crossesMany list entity = .ok many ∧
      (many = true ↔ list.toTree.CrossesMany s e) := by
  induction list generalizing entity e with
  | nil => exact ⟨false, rfl, by simp [JoinList.toTree, JoinTree.not_crossesMany_nil]⟩
  | name name rest ih =>
      obtain ⟨⟨r, target, hresolves, _⟩, hrest⟩ := hresolved
      obtain ⟨many, hmany, hiff⟩ := ih hentity hrest
      rw [JoinList.toTree, JoinTree.crossesMany_node hresolves, crossesMany,
        hresolves.isToMany_eq hentity, ← hiff]
      cases r.toMany with
      | true => exact ⟨true, rfl, by simp⟩
      | false => exact ⟨many, hmany, by simp [JoinTree.not_crossesMany_nil]⟩
  | path name inner rest ihInner ihRest =>
      obtain ⟨⟨r, target, hresolves, hinner⟩, hrest⟩ := hresolved
      have htarget := target_eq_ok.mpr ⟨e, r, hentity, hresolves.1, rfl⟩
      obtain ⟨below, hbelow, hiffBelow⟩ := ihInner hresolves.2 hinner
      obtain ⟨many, hmany, hiff⟩ := ihRest hentity hrest
      -- what comes first decides: the name itself, then the names below it, then those beside it
      rw [JoinList.toTree, JoinTree.crossesMany_node hresolves, crossesMany,
        hresolves.isToMany_eq hentity, htarget, ← hiff, ← hiffBelow]
      cases r.toMany with
      | true => exact ⟨true, rfl, by simp⟩
      | false =>
          simp only [bind, Except.bind, hbelow]
          cases below with
          | true => exact ⟨true, rfl, by simp⟩
          | false => exact ⟨many, hmany, by simp⟩

end Schema

/-! ## Flattening -/

namespace Naming

variable {s : Schema} {entity : String} {e : Entity} {tree : ConditionTree}

/-- Entering an association that resolves succeeds if what is below it does. -/
theorem exists_enter {name : String} {inner : ConditionTree} {r : Relationship} {target : Entity}
    {below : Dict String Value} (hentity : s.entity? entity = some e)
    (hresolves : s.Resolves e name r target) (hbelow : s.naming.nested inner r.target ∅ = .ok below)
    (acc : Dict String Value) :
    ∃ d, s.naming.enter entity name inner.literals (fun target => s.naming.nested inner target ∅)
      acc = .ok d := by
  have htarget := Schema.target_eq_ok.mpr ⟨e, r, hentity, hresolves.1, rfl⟩
  simp only [enter, Outcome.bind_eq_ok]
  exact ⟨_, r.target, htarget, target.table, hresolves.targetTable_eq hentity, below, hbelow, rfl⟩

theorem exists_nested (hentity : s.entity? entity = some e)
    (hresolved : tree.associations.IsResolved s e) (acc : Dict String Value) :
    ∃ d, s.naming.nested tree entity acc = .ok d := by
  induction tree generalizing entity e acc with
  | nil => exact ⟨acc, rfl⟩
  | literal name value rest ih => exact ih hentity hresolved acc
  | association name inner rest ihInner ihRest =>
      obtain ⟨⟨r, target, hresolves, hinner⟩, hrest⟩ := hresolved
      obtain ⟨below, hbelow⟩ := ihInner hresolves.2 hinner ∅
      obtain ⟨mid, hmid⟩ := exists_enter hentity hresolves hbelow acc
      obtain ⟨d, hd⟩ := ihRest hentity hrest mid
      exact ⟨d, Outcome.bind_eq_ok.mpr ⟨mid, hmid, hd⟩⟩

/-- A condition whose associations resolve can be flattened. -/
theorem exists_flattenInto (hentity : s.entity? entity = some e)
    (hresolved : tree.associations.IsResolved s e) (acc : Dict String Value) :
    ∃ d, s.naming.flattenInto false entity tree acc = .ok d := by
  induction tree generalizing acc with
  | nil => exact ⟨acc, rfl⟩
  | literal name value rest ih => exact ih hresolved (acc.insert name value)
  | association name inner rest _ ihRest =>
      obtain ⟨⟨r, target, hresolves, hinner⟩, hrest⟩ := hresolved
      obtain ⟨below, hbelow⟩ := exists_nested hresolves.2 hinner ∅
      obtain ⟨mid, hmid⟩ := exists_enter hentity hresolves hbelow acc
      obtain ⟨d, hd⟩ := ihRest hrest mid
      exact ⟨d, Outcome.bind_eq_ok.mpr ⟨mid, hmid, hd⟩⟩

/-- A literal entry below an association that resolves has a reference, under which flattening
adds it. -/
theorem exists_contributed {above : List String} {reached : String} {leaf : Leaf}
    (hreach : s.naming.reach entity above = .ok reached) (hreached : s.entity? reached = some e)
    (hresolved : tree.associations.IsResolved s e) (hleaf : leaf ∈ tree.leavesBelow above) :
    ∃ key, s.naming.leafKey false entity leaf = .ok key ∧
      tree.Contributes s e (key, leaf.value) := by
  induction tree generalizing above reached e with
  | nil => cases hleaf
  | literal name value rest ih =>
      obtain ⟨key, hkey, hcontributed⟩ := ih hreach hreached hresolved hleaf
      exact ⟨key, hkey, ConditionTree.contributes_literal.mpr hcontributed⟩
  | association name inner rest ihInner ihRest =>
      obtain ⟨⟨r, target, hresolves, hinner⟩, hrest⟩ := hresolved
      simp only [ConditionTree.contributes_association hresolves]
      rw [ConditionTree.leavesBelow, List.mem_append, List.mem_append] at hleaf
      rcases hleaf with (hliteral | hdeeper) | hlater
      · obtain ⟨⟨own, value⟩, hentry, rfl⟩ := List.mem_map.mp hliteral
        exact ⟨_, leafKey_concat hreach (hresolves.targetTable_eq hreached),
          Or.inl (Or.inl ⟨own, hentry, rfl⟩)⟩
      · have htarget := Schema.target_eq_ok.mpr ⟨e, r, hreached, hresolves.1, rfl⟩
        obtain ⟨key, hkey, hcontributed⟩ :=
          ihInner (reach_concat hreach htarget) hresolves.2 hinner hdeeper
        exact ⟨key, hkey, Or.inl (Or.inr hcontributed)⟩
      · obtain ⟨key, hkey, hcontributed⟩ := ihRest hreach hreached hrest hlater
        exact ⟨key, hkey, Or.inr hcontributed⟩

/-- If the joins of a condition have tables of their own, each literal entry has an entry that
stands for it. -/
theorem exists_isEntryOf (hs : s.WellFormed) (hentity : s.entity? entity = some e)
    (htree : tree.hasPlainKeysAndData = true) (hown : tree.associations.HasOwnTables s e)
    {d : Dict String Value} (hflat : s.naming.flatten false entity tree = .ok d) {leaf : Leaf}
    (hleaf : leaf ∈ tree.leaves) :
    ∃ entry ∈ d.entries, s.naming.IsEntryOf false entity leaf entry := by
  have hflatten : ∀ entry, entry ∈ d.entries ↔
      entry ∈ tree.literals ∨ tree.Contributes s e entry :=
    fun _ => mem_flatten hs hentity htree hown hflat
  have hresolved := (flattenInto_extends hentity hflat).1
  rcases ConditionTree.mem_leaves.mp hleaf with ⟨entry, hentry, rfl⟩ | hbelow
  · exact ⟨entry, (hflatten entry).mpr (Or.inl hentry), rfl, rfl⟩
  · obtain ⟨key, hkey, hcontributed⟩ := exists_contributed rfl hentity hresolved hbelow
    exact ⟨(key, leaf.value), (hflatten _).mpr (Or.inr hcontributed), hkey, rfl⟩

end Naming

/-- Whether each literal entry of a condition on an entity can be built by itself, under its
reference. -/
def ConditionTree.IsBuildable (s : Schema) (entity : String) (tree : ConditionTree) : Prop :=
  ∀ leaf ∈ tree.leaves, ∃ key part, s.naming.leafKey false entity leaf = .ok key ∧
    s.entryExpr entity (key, leaf.value) = .ok part

/-- If the joins of a condition have tables of their own, its literal entries can be built exactly
if the entries of the flattened condition can. -/
theorem ConditionTree.isBuildable_iff {s : Schema} {entity : String} {e : Entity}
    {tree : ConditionTree} (hs : s.WellFormed) (hentity : s.entity? entity = some e)
    (htree : tree.hasPlainKeysAndData = true) (hown : tree.associations.HasOwnTables s e)
    {d : Dict String Value} (hflat : s.naming.flatten false entity tree = .ok d) :
    tree.IsBuildable s entity ↔
      ∀ entry ∈ d.entries, ∃ part, s.entryExpr entity entry = .ok part := by
  constructor
  · intro h entry hentry
    obtain ⟨leaf, hleaf, hkey, hvalue⟩ := Naming.exists_leaf hflat hentry
    obtain ⟨key, part, hkey', hpart⟩ := h leaf hleaf
    obtain rfl := Except.ok.inj (hkey.symm.trans hkey')
    rw [← hvalue] at hpart
    exact ⟨part, hpart⟩
  · intro h leaf hleaf
    -- no literal entry is lost, so its own entry is among those that can be built
    obtain ⟨⟨key, value⟩, hentry, hkey, rfl⟩ :=
      Naming.exists_isEntryOf hs hentity htree hown hflat hleaf
    obtain ⟨part, hpart⟩ := h _ hentry
    exact ⟨key, part, hkey, hpart⟩

namespace Query

variable {q : Query} {e : Entity}

/-- The joins of a query resolve where the associations of all rules do. -/
theorem isResolved_joins
    (hresolved : ∀ rule ∈ q.rules, rule.condition.associations.IsResolved q.schema e) :
    (q.joins.getD .nil).toTree.IsResolved q.schema e := by
  rw [toTree_joins]
  refine JoinTree.isResolved_mergeAll fun tree htree => ?_
  obtain ⟨rule, hrule, rfl⟩ := List.mem_map.mp htree
  exact hresolved rule hrule

/-- Where the associations of all rules resolve a filter can be joined along them. Repetitions
are dropped if a rule crosses to many rows. -/
theorem exists_joined (hentity : q.schema.entity? q.entity = some e)
    (hresolved : ∀ rule ∈ q.rules, rule.condition.associations.IsResolved q.schema e) (p : Expr) :
    ∃ s, q.joinedStatement p = .ok s ∧ (s.distinct = true ↔
      ∃ rule ∈ q.rules, rule.condition.associations.CrossesMany q.schema e) := by
  have htree := isResolved_joins hresolved
  have hrows : q.rowsWhere p = .ok { Select.ofEntity e with filter := some p } := by
    simp [rowsWhere, allRows, hentity, bind, Except.bind, pure, Except.pure]
  obtain ⟨joined, hjoined⟩ := Schema.exists_applyJoins hentity htree
    { Select.ofEntity e with filter := some p }
  obtain ⟨many, hmany, hiff⟩ := Schema.exists_crossesMany hentity htree
  refine ⟨{ joined with distinct := many }, ?_, hiff.trans ?_⟩
  · simp only [joinedStatement, Outcome.bind_eq_ok, liftLookup_eq_ok]
    exact ⟨_, hrows, joined, hjoined, many, hmany, rfl⟩
  · rw [toTree_joins]
    simp only [JoinTree.CrossesMany, JoinTree.leads_mergeAll, List.mem_map,
      exists_exists_and_eq_and]
    constructor
    · rintro ⟨join, ⟨path, rule, hrule, hleads⟩, hmany⟩
      exact ⟨rule, hrule, join, ⟨path, hleads⟩, hmany⟩
    · rintro ⟨rule, hrule, join, ⟨path, hleads⟩, hmany⟩
      exact ⟨join, ⟨path, rule, hrule, hleads⟩, hmany⟩

section SingleRule

variable {rule : Rule} {tree : ConditionTree} (hproxy : q.isProxy = false)
  (hlist : q.rules = [rule]) (hallow : rule.allow = true)
  (hmapping : rule.condition = .mapping tree)
include hproxy hlist hallow hmapping

/-- The filter of a single allowing rule is that of its flattened condition. -/
theorem predicate_eq_ok {p : Expr} : q.predicate = .ok p ↔
    ∃ d, q.schema.naming.flatten false q.entity tree = .ok d ∧
      q.schema.mappingExpr q.entity d.entries = .ok p := by
  have hfilter : q.filter =
      liftLookup (.mapping <$> q.schema.naming.flatten false q.entity tree) := by
    rw [filter, hlist]
    simp only [hallow, if_true]
    rw [ruleFilter, hmapping, hproxy]
    rfl
  rw [predicate, hfilter]
  simp only [Outcome.bind_eq_ok, liftLookup_eq_ok, liftFilter_eq_ok, Outcome.map_eq_ok]
  constructor
  · rintro ⟨_, ⟨d, hflat, rfl⟩, hp⟩
    exact ⟨d, hflat, hp⟩
  · rintro ⟨d, hflat, hp⟩
    exact ⟨.mapping d, ⟨d, hflat, rfl⟩, hp⟩

/-- Where the associations resolve to joins with tables of their own, the filter of a single
allowing rule can be built exactly if the literal entries can. -/
theorem exists_predicate_iff (hs : q.schema.WellFormed)
    (hentity : q.schema.entity? q.entity = some e) (htree : tree.hasPlainKeysAndData = true)
    (hresolved : tree.associations.IsResolved q.schema e)
    (hown : tree.associations.HasOwnTables q.schema e) :
    (∃ p, q.predicate = .ok p) ↔ tree.IsBuildable q.schema q.entity := by
  simp only [predicate_eq_ok hproxy hlist hallow hmapping]
  obtain ⟨d, hflat⟩ := Naming.exists_flattenInto hentity hresolved ∅
  rw [ConditionTree.isBuildable_iff hs hentity htree hown hflat, ← Schema.exists_mappingExpr_iff]
  constructor
  · rintro ⟨p, d', hflat', hp⟩
    obtain rfl := Except.ok.inj (hflat'.symm.trans hflat)
    exact ⟨p, hp⟩
  · rintro ⟨p, hp⟩
    exact ⟨p, d, hflat, hp⟩

end SingleRule

end Query

end RowPolicy
