import Mathlib.Data.List.Induction
import RowPolicy.Proofs.Holding

/-!
# Paths of associations

A path of names leads through a tree of associations from one entity to the next, and in the
end to a join. Merging trees adds up their paths. Where no two joins lead to the same table
there is one path to each of them, whatever entities it crosses.
-/

namespace RowPolicy

open Sql (Database Join Row)

namespace Schema

variable {s : Schema} {e target : Entity} {name : String} {r : Relationship}

/-- Whether an entity is the one that the schema lists under its name. -/
def Lists (s : Schema) (e : Entity) : Prop := s.entity? e.name = some e

theorem lists_of_entity? (h : s.entity? name = some e) : s.Lists e := by
  have hname : e.name = name := by simpa using List.find?_some h
  rw [Lists, hname, h]

theorem Lists.mem (h : s.Lists e) : e ∈ s.entities := List.mem_of_find?_eq_some h

theorem Resolves.name_eq (h : s.Resolves e name r target) : r.name = name := by
  simpa using List.find?_some h.1

theorem Resolves.lists (h : s.Resolves e name r target) : s.Lists target :=
  lists_of_entity? h.2

theorem Resolves.mem (h : s.Resolves e name r target) : r ∈ e.relationships :=
  List.mem_of_find?_eq_some h.1

theorem Resolves.unique {r' : Relationship} {target' : Entity}
    (h : s.Resolves e name r target) (h' : s.Resolves e name r' target') :
    r = r' ∧ target = target' := by
  obtain rfl := Option.some.inj (h.1.symm.trans h'.1)
  exact ⟨rfl, Option.some.inj (h.2.symm.trans h'.2)⟩

/-- Whether a join follows a relationship of the schema. -/
def HasJoin (s : Schema) (join : Join) : Prop :=
  ∃ source name r target, join = .related source r target ∧ s.Lists source ∧
    s.Resolves source name r target

/-- Joins of a schema that follow the same relationship are equal. -/
theorem HasJoin.eq_of_repeats {join join' : Join} (h : s.HasJoin join) (h' : s.HasJoin join')
    (hrepeats : join.repeats join' = true) : join = join' := by
  obtain ⟨source, n, r, target, rfl, hsource, hresolves⟩ := h
  obtain ⟨source', n', r', target', rfl, hsource', hresolves'⟩ := h'
  simp only [Join.repeats, Bool.and_eq_true, beq_iff_eq] at hrepeats
  obtain rfl : source = source' := by
    rw [Lists, ← hrepeats.1, hsource] at hsource'
    exact Option.some.inj hsource'
  obtain rfl : n = n' :=
    hresolves.name_eq.symm.trans (hrepeats.2.trans hresolves'.name_eq)
  obtain ⟨rfl, rfl⟩ := hresolves.unique hresolves'
  rfl

theorem HasJoin.repeats_self {join : Join} (h : s.HasJoin join) :
    join.repeats join = true := by
  obtain ⟨source, n, r, target, rfl, _⟩ := h
  simp [Join.repeats]

end Schema

namespace JoinTree

variable {s : Schema} {e : Entity} {path : List String} {join : Join}

/-- Whether a path of names leads from an entity through a tree to a join. -/
def Leads (s : Schema) (join : Join) : JoinTree → Entity → List String → Prop
  | nil, _, _ => False
  | node name inner rest, e, path =>
      (∃ r target, s.Resolves e name r target ∧
        ((path = [name] ∧ join = .related e r target) ∨
          ∃ deeper, path = name :: deeper ∧ inner.Leads s join target deeper)) ∨
      rest.Leads s join e path

section Node

variable {name : String} {inner rest : JoinTree} {r : Relationship} {target : Entity}
  (hresolves : s.Resolves e name r target)
include hresolves

/-- A path through a tree ends at the first name, goes on below it, or leaves it out. -/
theorem leads_node : (node name inner rest).Leads s join e path ↔
    (path = [name] ∧ join = .related e r target) ∨
      (∃ deeper, path = name :: deeper ∧ inner.Leads s join target deeper) ∨
        rest.Leads s join e path := by
  rw [Leads, ← or_assoc]
  refine or_congr_left ⟨?_, fun h => ⟨r, target, hresolves, h⟩⟩
  rintro ⟨r', target', hresolves', h⟩
  obtain ⟨rfl, rfl⟩ := hresolves.unique hresolves'
  exact h

theorem leads_here : (node name inner rest).Leads s (.related e r target) e [name] :=
  (leads_node hresolves).mpr (Or.inl ⟨rfl, rfl⟩)

theorem Leads.below (h : inner.Leads s join target path) :
    (node name inner rest).Leads s join e (name :: path) :=
  (leads_node hresolves).mpr (Or.inr (Or.inl ⟨path, rfl, h⟩))

end Node

/-- The last name of a path is the relationship of its join, whose source is where the path
leads without that name. -/
theorem Leads.exists_front {tree : JoinTree} (h : tree.Leads s join e path) :
    ∃ front name source r target, path = front ++ [name] ∧ join = .related source r target ∧
      s.Resolves source name r target ∧ (s.Lists e → s.Lists source) ∧
      ((front = [] ∧ source = e) ∨
        ∃ above r', tree.Leads s (.related above r' source) e front) := by
  induction tree generalizing e path with
  | nil => exact h.elim
  | node n inner rest ihInner ihRest =>
      rcases h with ⟨r, target, hresolves, ⟨rfl, rfl⟩ | ⟨deeper, rfl, hdeeper⟩⟩ | hrest
      · exact ⟨[], n, e, r, target, rfl, rfl, hresolves, id, Or.inl ⟨rfl, rfl⟩⟩
      · obtain ⟨front, name, source, r', target', rfl, rfl, hsource, hlists, habove⟩ :=
          ihInner hdeeper
        refine ⟨n :: front, name, source, r', target', rfl, rfl, hsource,
          fun _ => hlists hresolves.lists, Or.inr ?_⟩
        rcases habove with ⟨rfl, rfl⟩ | ⟨above, r'', habove⟩
        · exact ⟨e, r, leads_here hresolves⟩
        · exact ⟨above, r'', habove.below hresolves⟩
      · obtain ⟨front, name, source, r', target', rfl, rfl, hsource, hlists, habove⟩ :=
          ihRest hrest
        refine ⟨front, name, source, r', target', rfl, rfl, hsource, hlists, ?_⟩
        rcases habove with hroot | ⟨above, r'', habove⟩
        · exact Or.inl hroot
        · exact Or.inr ⟨above, r'', Or.inr habove⟩

theorem Leads.hasJoin {tree : JoinTree} (h : tree.Leads s join e path) (he : s.Lists e) :
    s.HasJoin join := by
  obtain ⟨_, name, source, r, target, _, rfl, hresolves, hlists, _⟩ := h.exists_front
  exact ⟨source, name, r, target, rfl, hlists he, hresolves⟩

/-- Whether every join to which a tree leads has a table of its own, other than that of the
entity at the root. -/
structure HasOwnTables (s : Schema) (tree : JoinTree) (e : Entity) : Prop where
  join_unique : ∀ path path' join join', tree.Leads s join e path →
    tree.Leads s join' e path' → join.table = join'.table → join = join'
  ne_root : ∀ path join, tree.Leads s join e path → join.table ≠ e.table

/-- Where joins have tables of their own only one path leads to each join. -/
theorem HasOwnTables.path_unique {tree : JoinTree} (hown : tree.HasOwnTables s e)
    {path path' : List String} (h : tree.Leads s join e path)
    (h' : tree.Leads s join e path') : path = path' := by
  -- from the last name on: a join settles its relationship and the entity that it starts from
  induction path using List.reverseRecOn generalizing path' join with
  | nil =>
      obtain ⟨front, name, _, _, _, hpath, _⟩ := h.exists_front
      simp at hpath
  | append_singleton front name ih =>
      obtain ⟨front₁, name₁, source, r, target, hpath₁, rfl, hresolves₁, _, habove₁⟩ :=
        h.exists_front
      obtain ⟨rfl, hname₁⟩ := List.append_inj' hpath₁ rfl
      obtain rfl := (List.cons.inj hname₁).1
      obtain ⟨front₂, name₂, _, _, _, rfl, heq, hresolves₂, _, habove₂⟩ := h'.exists_front
      obtain ⟨rfl, rfl, rfl⟩ := Join.related.inj heq
      obtain rfl : name = name₂ := hresolves₁.name_eq.symm.trans hresolves₂.name_eq
      suffices hfront : front = front₂ by rw [hfront]
      rcases habove₁ with ⟨rfl, rfl⟩ | ⟨above₁, r₁, habove₁⟩ <;>
        rcases habove₂ with ⟨rfl, hsource⟩ | ⟨above₂, r₂, habove₂⟩
      · rfl
      · exact (hown.ne_root _ _ habove₂ rfl).elim
      · exact (hown.ne_root _ _ habove₁ (congrArg Entity.table hsource)).elim
      · have hjoin := hown.join_unique _ _ _ _ habove₁ habove₂ rfl
        exact ih habove₁ (hjoin ▸ habove₂)

/-- A join with a table of its own does not start from that table. -/
theorem HasOwnTables.source_ne {tree : JoinTree} (hown : tree.HasOwnTables s e)
    {source target : Entity} {r : Relationship}
    (h : tree.Leads s (.related source r target) e path) : source.table ≠ target.table := by
  intro htable
  obtain ⟨front, name, _, _, _, rfl, heq, _, _, habove⟩ := h.exists_front
  obtain ⟨rfl, rfl, rfl⟩ := Join.related.inj heq
  rcases habove with ⟨_, rfl⟩ | ⟨above, r', habove⟩
  · exact hown.ne_root _ _ h htable.symm
  · have hjoin := hown.join_unique _ _ _ _ habove h htable
    have hpath := hown.path_unique habove (hjoin ▸ h)
    simp at hpath

theorem HasOwnTables.mono {tree sub : JoinTree} (hown : tree.HasOwnTables s e)
    (hsub : ∀ path join, sub.Leads s join e path → tree.Leads s join e path) :
    sub.HasOwnTables s e where
  join_unique path path' join join' h h' :=
    hown.join_unique path path' join join' (hsub path join h) (hsub path' join' h')
  ne_root path join h := hown.ne_root path join (hsub path join h)

/-! ## Merged trees -/

theorem leads_graft {inner : JoinTree} {change : JoinTree → JoinTree} {name : String}
    (hchange : ∀ (known : JoinTree) (e : Entity) (path : List String),
      (change known).Leads s join e path ↔
        known.Leads s join e path ∨ inner.Leads s join e path) (tree : JoinTree) :
    (tree.graft name change).Leads s join e path ↔
      tree.Leads s join e path ∨ (node name inner nil).Leads s join e path := by
  induction tree with
  | nil => simp [graft, Leads, hchange]
  | node n below rest _ ihRest =>
      unfold graft
      split
      next hname =>
        subst hname
        simp only [Leads, hchange, or_false]
        constructor
        · rintro (⟨r, target, hresolves, hhere | ⟨deeper, rfl, hbelow | hinner⟩⟩ | hrest)
          · exact Or.inl (Or.inl ⟨r, target, hresolves, Or.inl hhere⟩)
          · exact Or.inl (Or.inl ⟨r, target, hresolves, Or.inr ⟨deeper, rfl, hbelow⟩⟩)
          · exact Or.inr ⟨r, target, hresolves, Or.inr ⟨deeper, rfl, hinner⟩⟩
          · exact Or.inl (Or.inr hrest)
        · rintro ((⟨r, target, hresolves, hhere | ⟨deeper, rfl, hbelow⟩⟩ | hrest) |
            ⟨r, target, hresolves, hhere | ⟨deeper, rfl, hinner⟩⟩)
          · exact Or.inl ⟨r, target, hresolves, Or.inl hhere⟩
          · exact Or.inl ⟨r, target, hresolves, Or.inr ⟨deeper, rfl, Or.inl hbelow⟩⟩
          · exact Or.inr hrest
          · exact Or.inl ⟨r, target, hresolves, Or.inl hhere⟩
          · exact Or.inl ⟨r, target, hresolves, Or.inr ⟨deeper, rfl, Or.inr hinner⟩⟩
      next => exact (or_congr_right ihRest).trans or_assoc.symm

/-- The paths of merged trees are those of either. -/
theorem leads_merge {base tree : JoinTree} : (base.merge tree).Leads s join e path ↔
    base.Leads s join e path ∨ tree.Leads s join e path := by
  induction tree generalizing base e path with
  | nil => simp [Leads]
  | node name inner rest ihInner ihRest =>
      have hgraft : (base.graft name fun known => merge known inner).Leads s join e path ↔
          base.Leads s join e path ∨ (node name inner nil).Leads s join e path :=
        leads_graft (fun known e path => ihInner) base
      unfold merge
      rw [ihRest, hgraft, or_assoc]
      simp [Leads]

theorem leads_mergeAll {trees : List JoinTree} : (mergeAll trees).Leads s join e path ↔
    ∃ tree ∈ trees, tree.Leads s join e path := by
  have hfold : ∀ base : JoinTree, (trees.foldl merge base).Leads s join e path ↔
      base.Leads s join e path ∨ ∃ tree ∈ trees, tree.Leads s join e path := by
    induction trees with
    | nil => intro base; simp
    | cons tree rest ih =>
        intro base
        rw [List.foldl_cons, ih, leads_merge, or_assoc]
        simp
  rw [mergeAll, hfold]
  simp [Leads]

/-! The same holds of paths of names, whether or not these lead anywhere. -/

theorem not_mem_paths_nil : ¬ path ∈ nil.paths := List.not_mem_nil

theorem mem_paths_node {name : String} {inner rest : JoinTree} :
    path ∈ (node name inner rest).paths ↔
      path = [name] ∨ (∃ deeper ∈ inner.paths, name :: deeper = path) ∨ path ∈ rest.paths := by
  simp [paths]

theorem ne_nil_of_mem_paths {tree : JoinTree} (h : path ∈ tree.paths) : path ≠ [] := by
  induction tree with
  | nil => cases h
  | node name inner rest _ ih =>
      rcases mem_paths_node.mp h with rfl | ⟨deeper, _, rfl⟩ | hrest
      · exact List.cons_ne_nil _ _
      · exact List.cons_ne_nil _ _
      · exact ih hrest

theorem mem_paths_graft {inner : JoinTree} {change : JoinTree → JoinTree} {name : String}
    (hchange : ∀ known path, path ∈ (change known).paths ↔
      path ∈ known.paths ∨ path ∈ inner.paths) (tree : JoinTree) :
    path ∈ (tree.graft name change).paths ↔
      path ∈ tree.paths ∨ path ∈ (node name inner nil).paths := by
  induction tree with
  | nil => simp [graft, mem_paths_node, hchange, not_mem_paths_nil]
  | node n below rest _ ihRest =>
      unfold graft
      split
      next hname =>
        subst hname
        simp only [mem_paths_node, hchange, not_mem_paths_nil, or_false, or_and_right, exists_or]
        constructor
        · rintro (hhere | (hbelow | hinner) | hrest)
          · exact Or.inl (Or.inl hhere)
          · exact Or.inl (Or.inr (Or.inl hbelow))
          · exact Or.inr (Or.inr hinner)
          · exact Or.inl (Or.inr (Or.inr hrest))
        · rintro ((hhere | hbelow | hrest) | hhere | hinner)
          · exact Or.inl hhere
          · exact Or.inr (Or.inl (Or.inl hbelow))
          · exact Or.inr (Or.inr hrest)
          · exact Or.inl hhere
          · exact Or.inr (Or.inl (Or.inr hinner))
      next =>
        simp only [mem_paths_node, ihRest, or_assoc]

/-- The paths of names of merged trees are those of either. -/
theorem mem_paths_merge {base tree : JoinTree} :
    path ∈ (base.merge tree).paths ↔ path ∈ base.paths ∨ path ∈ tree.paths := by
  induction tree generalizing base path with
  | nil => simp [not_mem_paths_nil]
  | node name inner rest ihInner ihRest =>
      unfold merge
      rw [ihRest, mem_paths_graft (fun known path => ihInner) base]
      simp [mem_paths_node, not_mem_paths_nil, or_assoc]

theorem mem_paths_mergeAll {trees : List JoinTree} :
    path ∈ (mergeAll trees).paths ↔ ∃ tree ∈ trees, path ∈ tree.paths := by
  have hfold : ∀ base : JoinTree, path ∈ (trees.foldl merge base).paths ↔
      path ∈ base.paths ∨ ∃ tree ∈ trees, path ∈ tree.paths := by
    induction trees with
    | nil => intro base; simp
    | cons tree rest ih =>
        intro base
        rw [List.foldl_cons, ih, mem_paths_merge, or_assoc]
        simp
  rw [mergeAll, hfold]
  simp [not_mem_paths_nil]

end JoinTree

/-! ## Following a choice of rows -/

/-- Whether a join leads from the chosen row of its source to the chosen row of its target. -/
def Sql.Join.IsMet (db : Database) (choice : String → Row) : Join → Prop
  | .related source r target => choice target.table ∈ db.rows target.table ∧
      r.link.Relates db target.table (choice source.table) (choice target.table)
  | .outer _ _ => False

/-- Whether a choice meets a join depends on the two tables that the join connects. -/
theorem Sql.Join.isMet_congr {db : Database} {choice choice' : String → Row}
    {source target : Entity} {r : Relationship}
    (hsource : choice source.table = choice' source.table)
    (htarget : choice target.table = choice' target.table) :
    (Join.related source r target).IsMet db choice ↔
      (Join.related source r target).IsMet db choice' := by
  simp only [Join.IsMet, hsource, htarget]

namespace JoinTree

variable {s : Schema} {e : Entity} {db : Database} {choice : String → Row}

/-- Whether every name of a tree stands for a relationship of the entity from which it is
reached. -/
def IsResolved (s : Schema) : JoinTree → Entity → Prop
  | nil, _ => True
  | node name inner rest, e =>
      (∃ r target, s.Resolves e name r target ∧ inner.IsResolved s target) ∧ rest.IsResolved s e

/-- A choice follows a tree if it meets every join to which the tree leads. -/
theorem followedBy_iff {tree : JoinTree} (hresolved : tree.IsResolved s e) :
    tree.FollowedBy s db choice e ↔
      ∀ path join, tree.Leads s join e path → join.IsMet db choice := by
  induction tree generalizing e with
  | nil => simp [FollowedBy, Leads]
  | node name inner rest ihInner ihRest =>
      obtain ⟨⟨r, target, hresolves, hinner⟩, hrest⟩ := hresolved
      rw [FollowedBy, ihRest hrest]
      constructor
      · rintro ⟨⟨target', ⟨r', hresolves', hrow, hlink⟩, hbelow⟩, hlater⟩ path join hleads
        obtain ⟨rfl, rfl⟩ := hresolves.unique hresolves'
        rcases (leads_node hresolves).mp hleads with ⟨_, rfl⟩ | ⟨deeper, _, hdeeper⟩ | hleads
        · exact ⟨hrow, hlink⟩
        · exact (ihInner hinner).mp hbelow deeper join hdeeper
        · exact hlater path join hleads
      · intro hall
        obtain ⟨hrow, hlink⟩ : (Join.related e r target).IsMet db choice :=
          hall [name] _ (leads_here hresolves)
        refine ⟨⟨target, ⟨r, hresolves, hrow, hlink⟩, (ihInner hinner).mpr ?_⟩, ?_⟩
        · exact fun path join hleads => hall (name :: path) join (hleads.below hresolves)
        · exact fun path join hleads => hall path join (Or.inr hleads)

end JoinTree

end RowPolicy
