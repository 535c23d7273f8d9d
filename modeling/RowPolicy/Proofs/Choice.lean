import Mathlib.Logic.Function.Basic
import RowPolicy.Proofs.Flattening
import RowPolicy.Proofs.Joining

/-!
# Choosing related rows

A condition that holds of a row holds by some choice, because the related rows that make it
hold lie in different tables. The choice can be continued along further joins as long as
each of them leads from every row to some row.
-/

namespace RowPolicy

open Sql (Database Join Row)

namespace JoinTree

variable {s : Schema} {e : Entity} {join : Join} {path : List String}

/-- Whether a table is that of the entity at the root or of a join to which a tree leads. -/
def Touches (s : Schema) (tree : JoinTree) (e : Entity) (table : String) : Prop :=
  table = e.table ∨ ∃ path join, tree.Leads s join e path ∧ join.table = table

/-- The source of a join to which a tree leads is touched as well. -/
theorem Leads.touches_source {tree : JoinTree} {source target : Entity} {r : Relationship}
    (h : tree.Leads s (.related source r target) e path) : tree.Touches s e source.table := by
  obtain ⟨front, name, source', r', target', _, heq, _, _, habove⟩ := h.exists_front
  obtain ⟨rfl, _, _⟩ := Join.related.inj heq
  rcases habove with ⟨_, rfl⟩ | ⟨above, r'', habove⟩
  · exact Or.inl rfl
  · exact Or.inr ⟨front, _, habove, rfl⟩

theorem Leads.ne_nil {tree : JoinTree} (h : tree.Leads s join e path) : path ≠ [] := by
  obtain ⟨front, name, _, _, _, rfl, _⟩ := h.exists_front
  simp

/-- The joins below a name have tables of their own if all joins have. -/
theorem HasOwnTables.inner {name : String} {inner rest : JoinTree} {r : Relationship}
    {target : Entity} (hresolves : s.Resolves e name r target)
    (hown : (node name inner rest).HasOwnTables s e) : inner.HasOwnTables s target := by
  constructor
  · intro path path' join join' h h'
    exact hown.join_unique _ _ _ _ (h.below hresolves) (h'.below hresolves)
  · intro path join h htable
    have hjoin := hown.join_unique _ _ _ _ (h.below hresolves) (leads_here hresolves) htable
    have hpath := hown.path_unique (hjoin ▸ h.below hresolves) (leads_here hresolves)
    exact h.ne_nil (List.cons.inj hpath).2

/-- If all joins have tables of their own, no table is touched both below a name and beside
it. -/
theorem HasOwnTables.apart {name table : String} {inner rest : JoinTree} {r : Relationship}
    {target : Entity} (hresolves : s.Resolves e name r target)
    (hown : (node name inner rest).HasOwnTables s e)
    (hbeside : ∀ path join, ¬ rest.Leads s join e (name :: path))
    (h : rest.Touches s e table) : ¬ inner.Touches s target table := by
  intro hinner
  obtain ⟨deeper, join, hdeeper, htable⟩ : ∃ deeper join,
      (node name inner rest).Leads s join e (name :: deeper) ∧ join.table = table := by
    rcases hinner with rfl | ⟨path, join, hleads, htable⟩
    · exact ⟨[], _, leads_here hresolves, rfl⟩
    · exact ⟨path, join, hleads.below hresolves, htable⟩
  rcases h with rfl | ⟨path, join', hleads, htable'⟩
  · exact hown.ne_root _ _ hdeeper htable
  · obtain rfl := hown.join_unique _ _ _ _ (Or.inr hleads) hdeeper (htable'.trans htable.symm)
    obtain rfl := hown.path_unique (Or.inr hleads) hdeeper
    exact hbeside deeper join' hleads

end JoinTree

namespace ConditionTree

variable {s : Schema} {db : Database} {choice choice' : String → Row} {e : Entity} {row : Row}
  {join : Join}

/-- Whether a condition holds by a choice depends on the tables that it touches. -/
theorem HoldsBy.congr {tree : ConditionTree} (h : tree.HoldsBy s db choice e)
    (hagree : ∀ table, tree.associations.Touches s e table → choice table = choice' table) :
    tree.HoldsBy s db choice' e := by
  induction tree generalizing e with
  | nil => trivial
  | literal name value rest ih =>
      exact ⟨hagree e.table (Or.inl rfl) ▸ h.1, ih h.2 hagree⟩
  | association name inner rest ihInner ihRest =>
      obtain ⟨⟨target, ⟨r, hresolves, hstored, hlink⟩, hinner⟩, hrest⟩ := h
      have htarget : choice target.table = choice' target.table :=
        hagree _ (Or.inr ⟨[name], _, JoinTree.leads_here hresolves, rfl⟩)
      have hroot : choice e.table = choice' e.table := hagree _ (Or.inl rfl)
      refine ⟨⟨target, ⟨r, hresolves, htarget ▸ hstored, htarget ▸ hroot ▸ hlink⟩,
        ihInner hinner fun table htouches => ?_⟩, ihRest hrest fun table htouches => ?_⟩
      · rcases htouches with rfl | ⟨path, join, hleads, rfl⟩
        · exact htarget
        · exact hagree _ (Or.inr ⟨name :: path, join, hleads.below hresolves, rfl⟩)
      · rcases htouches with rfl | ⟨path, join, hleads, rfl⟩
        · exact hroot
        · exact hagree _ (Or.inr ⟨path, join, Or.inr hleads, rfl⟩)

/-- A choice by which a condition holds meets the joins of its associations. -/
theorem HoldsBy.isMet {tree : ConditionTree} {path : List String}
    (h : tree.HoldsBy s db choice e) (hleads : tree.associations.Leads s join e path) :
    join.IsMet db choice := by
  induction tree generalizing e path with
  | nil => exact hleads.elim
  | literal name value rest ih => exact ih h.2 hleads
  | association name inner rest ihInner ihRest =>
      obtain ⟨⟨target, ⟨r, hresolves, hrelated⟩, hinner⟩, hrest⟩ := h
      rcases (JoinTree.leads_node hresolves).mp hleads with
        ⟨_, rfl⟩ | ⟨deeper, _, hdeeper⟩ | hlater
      · exact hrelated
      · exact ihInner hinner hdeeper
      · exact ihRest hrest hlater

/-- It follows these associations. -/
theorem HoldsBy.followedBy {tree : ConditionTree} (h : tree.HoldsBy s db choice e) :
    tree.associations.FollowedBy s db choice e := by
  induction tree generalizing e with
  | nil => trivial
  | literal name value rest ih => exact ih h.2
  | association name inner rest ihInner ihRest =>
      obtain ⟨⟨target, hrelated, hinner⟩, hrest⟩ := h
      exact ⟨⟨target, hrelated, ihInner hinner⟩, ihRest hrest⟩

theorem mem_names_of_leads {tree : ConditionTree} {name : String} {path : List String}
    (h : tree.associations.Leads s join e (name :: path)) : name ∈ tree.names := by
  induction tree with
  | nil => exact h.elim
  | literal n value rest ih => exact List.mem_cons_of_mem _ (ih h)
  | association n inner rest _ ih =>
      rcases h with ⟨_, _, _, ⟨hpath, _⟩ | ⟨_, hpath, _⟩⟩ | hrest
      · exact (List.cons.inj hpath).1 ▸ List.mem_cons_self
      · exact (List.cons.inj hpath).1 ▸ List.mem_cons_self
      · exact List.mem_cons_of_mem _ (ih hrest)

/-- A condition that holds of a row holds by a choice of that row and of related ones. -/
theorem HoldsOf.exists_choice {tree : ConditionTree} (htree : tree.hasPlainKeysAndData = true)
    (hown : tree.associations.HasOwnTables s e) (h : tree.HoldsOf s db e row) :
    ∃ choice : String → Row, choice e.table = row ∧ tree.HoldsBy s db choice e := by
  induction tree generalizing e row with
  | nil => exact ⟨fun _ => row, rfl, trivial⟩
  | literal name value rest ih =>
      simp only [hasPlainKeysAndData, Bool.and_eq_true] at htree
      obtain ⟨choice, hroot, hrest⟩ := ih htree.2 hown h.2
      exact ⟨choice, hroot, hroot.symm ▸ h.1, hrest⟩
  | association name inner rest ihInner ihRest =>
      simp only [hasPlainKeysAndData, Bool.and_eq_true, Bool.not_eq_true', List.contains_eq_mem,
        decide_eq_false_iff_not] at htree
      obtain ⟨⟨target, related, ⟨r, hresolves, hstored, hlink⟩, hinner⟩, hrest⟩ := h
      obtain ⟨below, hbelow, hinner⟩ := ihInner htree.1.2 (hown.inner hresolves) hinner
      obtain ⟨beside, hbeside, hrest⟩ :=
        ihRest htree.2 (hown.mono fun path join hleads => Or.inr hleads) hrest
      have hapart : ∀ table, rest.associations.Touches s e table →
          ¬ inner.associations.Touches s target table := fun table =>
        hown.apart hresolves fun path join hleads => htree.1.1 (mem_names_of_leads hleads)
      -- the tables that the association touches get their rows from below, the others from beside
      classical
      let choice : String → Row := fun table =>
        if inner.associations.Touches s target table then below table else beside table
      have hinside : ∀ table, inner.associations.Touches s target table →
          below table = choice table := fun table htable => (if_pos htable).symm
      have houtside : ∀ table, rest.associations.Touches s e table →
          beside table = choice table := fun table htable => (if_neg (hapart table htable)).symm
      have hroot : choice e.table = row := (houtside _ (Or.inl rfl)).symm.trans hbeside
      have htarget : choice target.table = related :=
        (hinside _ (Or.inl rfl)).symm.trans hbelow
      refine ⟨choice, hroot, ⟨target, ⟨r, hresolves, ?_, ?_⟩, hinner.congr hinside⟩,
        hrest.congr houtside⟩
      · rwa [htarget]
      · rwa [htarget, hroot]

end ConditionTree

/-! ## Continuing a choice -/

/-- Whether a join leads from every row stored to some row. -/
def Sql.Join.IsTotal (db : Database) : Join → Prop
  | .related source r target => ∀ row ∈ db.rows source.table, ∃ related ∈ db.rows target.table,
      r.link.Relates db target.table row related
  | .outer _ _ => False

namespace JoinTree

/-- Whether every association of a tree leads from every row stored to some row. -/
def IsTotal (s : Schema) (db : Database) : JoinTree → Entity → Prop
  | nil, _ => True
  | node name inner rest, e =>
      (∀ row ∈ db.rows e.table, ∃ target related, s.Related db e name row target related) ∧
      (∀ r target, s.Resolves e name r target → inner.IsTotal s db target) ∧
      rest.IsTotal s db e

theorem IsTotal.of_leads {s : Schema} {db : Database} {e : Entity} {join : Join}
    {path : List String} {tree : JoinTree} (htotal : tree.IsTotal s db e)
    (h : tree.Leads s join e path) : join.IsTotal db := by
  induction tree generalizing e path with
  | nil => exact h.elim
  | node name inner rest ihInner ihRest =>
      obtain ⟨hhere, hbelow, hlater⟩ := htotal
      rcases h with ⟨r, target, hresolves, ⟨_, rfl⟩ | ⟨deeper, _, hdeeper⟩⟩ | hrest
      · intro row hrow
        obtain ⟨target', related, r', hresolves', hrelated⟩ := hhere row hrow
        obtain ⟨rfl, rfl⟩ := hresolves.unique hresolves'
        exact ⟨related, hrelated⟩
      · exact ihInner (hbelow r target hresolves) hdeeper
      · exact ihRest hlater hrest

end JoinTree

namespace Sql.Join

variable {db : Database} {choice : String → Row} {known : List String} {joins : List Join}
  {kept : String → Prop}

/-- A choice can be changed to meet one more join that leads from every row to some row. Only
a fresh table gets another row, and none if it is to be kept. -/
theorem exists_next {source target : Entity} {r : Relationship} (hfresh : target.table ∉ known)
    (hsource : source.table ∈ known) (hstored : choice source.table ∈ db.rows source.table)
    (htotal : (related source r target).IsTotal db)
    (hkept : kept target.table → (related source r target).IsMet db choice) :
    ∃ next : String → Row, (∀ table, table ∈ known ∨ kept table → next table = choice table) ∧
      (related source r target).IsMet db next := by
  by_cases htarget : kept target.table
  · exact ⟨choice, fun _ _ => rfl, hkept htarget⟩
  · obtain ⟨row, hrow, hlink⟩ := htotal _ hstored
    have hother : ∀ table, table ∈ known ∨ kept table →
        Function.update choice target.table row table = choice table := by
      intro table htable
      refine Function.update_of_ne ?_ _ _
      rintro rfl
      exact htable.elim hfresh htarget
    refine ⟨Function.update choice target.table row, hother, ?_⟩
    rw [IsMet, hother _ (Or.inl hsource), Function.update_self]
    exact ⟨hrow, hlink⟩

/-- A choice can be continued along joins in order if each of them leads from every row to
some row. Tables to be kept keep their rows if the joins to them start from such tables and
are met. -/
theorem exists_continuation (horder : InOrder known joins)
    (hnodup : (known ++ joins.map table).Nodup)
    (hstored : ∀ table ∈ known, choice table ∈ db.rows table)
    (htotal : ∀ join ∈ joins, join.IsTotal db)
    (hkept : ∀ source r target, related source r target ∈ joins → kept target.table →
      kept source.table ∧ (related source r target).IsMet db choice) :
    ∃ choice' : String → Row, (∀ table, table ∈ known ∨ kept table →
        choice' table = choice table) ∧ ∀ join ∈ joins, join.IsMet db choice' := by
  induction joins generalizing known choice with
  | nil => exact ⟨choice, fun _ _ => rfl, by simp⟩
  | cons first rest ih =>
      cases first with
      | outer subject on => exact horder.elim
      | related source r target =>
          obtain ⟨hsource, hrest⟩ := horder
          obtain ⟨hfresh, hnodup'⟩ := fresh_of_nodup hnodup
          simp only [List.mem_cons, forall_eq_or_imp] at htotal
          obtain ⟨next, hnext, hmetNext⟩ := exists_next hfresh hsource (hstored _ hsource)
            htotal.1 fun htarget => (hkept source r target List.mem_cons_self htarget).2
          have hstored' : ∀ table ∈ target.table :: known, next table ∈ db.rows table := by
            refine List.forall_mem_cons.mpr ⟨hmetNext.1, fun table htable => ?_⟩
            exact hnext table (Or.inl htable) ▸ hstored table htable
          obtain ⟨choice', hagree, hmet⟩ := ih hrest hnodup' hstored' htotal.2 (by
            intro source r target hmem htarget
            obtain ⟨hkeptSource, hmet⟩ :=
              hkept source r target (List.mem_cons_of_mem _ hmem) htarget
            exact ⟨hkeptSource, (isMet_congr (hnext _ (Or.inr hkeptSource))
              (hnext _ (Or.inr htarget))).mpr hmet⟩)
          refine ⟨choice', fun table htable => ?_, List.forall_mem_cons.mpr ⟨?_, hmet⟩⟩
          · rw [hagree table (htable.imp_left (List.mem_cons_of_mem _)), hnext table htable]
          · exact (isMet_congr (hagree _ (Or.inl (List.mem_cons_of_mem _ hsource)))
              (hagree _ (Or.inl List.mem_cons_self))).mpr hmetNext

end Sql.Join

end RowPolicy
