import Mathlib.Data.List.Nodup
import RowPolicy.Join.Apply
import RowPolicy.Proofs.Path

/-!
# The joins of a statement

A statement is joined along every path of a tree. Each join starts from a table that is
there already, also after joins that repeat an earlier one are left out.
-/

namespace RowPolicy

open Sql (Join)

namespace Sql.Join

/-- Whether each join of a list starts from a table that is known by then. -/
def InOrder (known : List String) : List Join → Prop
  | [] => True
  | .related source _ target :: rest =>
      source.table ∈ known ∧ InOrder (target.table :: known) rest
  | .outer _ _ :: _ => False

variable {known more : List String} {joins later : List Join}

theorem InOrder.mono (h : InOrder known joins) (hmore : known ⊆ more) : InOrder more joins := by
  induction joins generalizing known more with
  | nil => trivial
  | cons join rest ih =>
      cases join with
      | outer subject on => exact h.elim
      | related source r target =>
          exact ⟨hmore h.1, ih h.2 (List.cons_subset_cons _ hmore)⟩

theorem InOrder.append (h : InOrder known joins) (hlater : InOrder known later) :
    InOrder known (joins ++ later) := by
  induction joins generalizing known with
  | nil => exact hlater
  | cons join rest ih =>
      cases join with
      | outer subject on => exact h.elim
      | related source r target =>
          exact ⟨h.1, ih h.2 (hlater.mono (List.subset_cons_self _ _))⟩

/-- Joins to tables that are known can be left out. -/
theorem InOrder.filter (keep : Join → Bool) (h : InOrder known joins)
    (hdropped : ∀ join ∈ joins, keep join = false → join.table ∈ known) :
    InOrder known (joins.filter keep) := by
  induction joins generalizing known with
  | nil => trivial
  | cons join rest ih =>
      simp only [List.mem_cons, forall_eq_or_imp] at hdropped
      cases join with
      | outer subject on => exact h.elim
      | related source r target =>
          by_cases hkeep : keep (.related source r target) = true
          · rw [List.filter_cons_of_pos hkeep]
            exact ⟨h.1, ih h.2 fun join hjoin hdrop =>
              List.mem_cons_of_mem _ (hdropped.2 join hjoin hdrop)⟩
          · rw [List.filter_cons_of_neg hkeep]
            have htarget : target.table ∈ known := hdropped.1 (by simpa using hkeep)
            exact ih (h.2.mono (List.cons_subset.mpr ⟨htarget, List.Subset.refl _⟩))
              hdropped.2

/-- Where tables differ the next one is fresh, and so are the others beside it. -/
theorem fresh_of_nodup {table : String} {rest : List String}
    (h : (known ++ table :: rest).Nodup) : table ∉ known ∧ (table :: known ++ rest).Nodup := by
  have hnodup : (table :: (known ++ rest)).Nodup := List.perm_middle.nodup_iff.mp h
  exact ⟨fun hmem => (List.nodup_cons.mp hnodup).1 (List.mem_append_left _ hmem), hnodup⟩

/-- What is left without repetitions was there, and repeats nothing in front of it. -/
theorem eraseDupsBy_spec {α : Type} (again : α → α → Bool) (as : List α) :
    (∀ a ∈ as.eraseDupsBy again, a ∈ as) ∧
      (as.eraseDupsBy again).Pairwise fun a b => again b a = false := by
  induction hlength : as.length using Nat.strongRecOn generalizing as with
  | _ n ih =>
    subst hlength
    cases as with
    | nil => exact ⟨fun a ha => ha, List.Pairwise.nil⟩
    | cons first rest =>
        rw [List.eraseDupsBy_cons]
        obtain ⟨hsub, hpairwise⟩ := ih _ (Nat.lt_succ_of_le (List.length_filter_le _ rest))
          (rest.filter fun b => again b first = false) rfl
        refine ⟨fun a ha => ?_, List.pairwise_cons.mpr ⟨fun a ha => ?_, hpairwise⟩⟩
        · rcases List.mem_cons.mp ha with rfl | hrest
          · exact List.mem_cons_self
          · exact List.mem_cons_of_mem _ (List.mem_filter.mp (hsub a hrest)).1
        · simpa using (List.mem_filter.mp (hsub a ha)).2

/-- Leaving out joins that repeat earlier ones changes neither which joins there are nor
their order, if only equal joins repeat each other. -/
theorem eraseDups_repeats (heq : ∀ join ∈ joins, ∀ join' ∈ joins,
      join.repeats join' = true → join = join') (hself : ∀ join ∈ joins, join.repeats join = true)
    (h : InOrder known joins) :
    (∀ join, join ∈ joins.eraseDupsBy repeats ↔ join ∈ joins) ∧
      InOrder known (joins.eraseDupsBy repeats) := by
  -- the repetitions are filtered out of the whole rest, so the induction is on the length
  induction hlength : joins.length using Nat.strongRecOn generalizing joins known with
  | _ n ih =>
    subst hlength
    cases joins with
    | nil => exact ⟨fun join => Iff.rfl, trivial⟩
    | cons first rest =>
        cases first with
        | outer subject on => exact h.elim
        | related source r target =>
            rw [List.eraseDupsBy_cons]
            simp only [List.mem_cons, forall_eq_or_imp] at heq hself
            have hsub : ∀ join ∈ rest.filter
                (fun b => b.repeats (.related source r target) = false), join ∈ rest :=
              fun join hjoin => (List.mem_filter.mp hjoin).1
            have horder := InOrder.filter
              (fun b => b.repeats (.related source r target) = false) h.2 (by
                intro join hjoin hdrop
                have hfirst := (heq.2 join hjoin).1 (by simpa using hdrop)
                exact hfirst ▸ List.mem_cons_self)
            obtain ⟨hmem, horder⟩ := ih _ (Nat.lt_succ_of_le (List.length_filter_le _ _))
              (fun join hjoin join' hjoin' =>
                (heq.2 join (hsub join hjoin)).2 join' (hsub join' hjoin'))
              (fun join hjoin => hself.2 join (hsub join hjoin)) horder rfl
            refine ⟨fun join => ?_, h.1, horder⟩
            rw [List.mem_cons, hmem, List.mem_filter, List.mem_cons]
            constructor
            · rintro (hjoin | ⟨hjoin, _⟩)
              · exact Or.inl hjoin
              · exact Or.inr hjoin
            · rintro (hjoin | hjoin)
              · exact Or.inl hjoin
              · by_cases hrepeats : join.repeats (.related source r target) = true
                · exact Or.inl ((heq.2 join hjoin).1 hrepeats)
                · exact Or.inr ⟨hjoin, by simpa using hrepeats⟩

end Sql.Join

namespace Schema

variable {s : Schema} {entity : String} {e : Entity} {join : Join}

theorem target_eq_ok {name target : String} : s.target entity name = .ok target ↔
    ∃ e r, s.entity? entity = some e ∧ e.relationship? name = some r ∧ r.target = target := by
  unfold Schema.target relationship Schema.entity
  cases hentity : s.entity? entity with
  | none => simp [bind, Except.bind]
  | some e =>
      cases hr : e.relationship? name with
      | none => simp [bind, Except.bind, hr, throw, throwThe, MonadExceptOf.throw]
      | some r => simp [bind, Except.bind, hr, pure, Except.pure]

theorem joinAlong_eq_ok {name : String} : s.joinAlong entity name = .ok join ↔
    ∃ e r target, s.entity? entity = some e ∧ s.Resolves e name r target ∧
      join = .related e r target := by
  unfold joinAlong relationship Schema.entity Resolves
  cases hentity : s.entity? entity with
  | none => simp [bind, Except.bind]
  | some e =>
      cases hr : e.relationship? name with
      | none => simp [bind, Except.bind, hr, throw, throwThe, MonadExceptOf.throw]
      | some r =>
          cases htarget : s.entity? r.target with
          | none => simp [bind, Except.bind, hr, htarget, pure, Except.pure]
          | some target =>
              simp [bind, Except.bind, hr, htarget, pure, Except.pure, eq_comm (a := join)]

/-- The joins to which a tree leads are that of its first name and those below and beside. -/
theorem exists_leads_node {name : String} {inner rest : JoinTree} {r : Relationship}
    {target : Entity} (hresolves : s.Resolves e name r target) :
    (∃ path, (JoinTree.node name inner rest).Leads s join e path) ↔ join = .related e r target ∨
      (∃ path, inner.Leads s join target path) ∨ ∃ path, rest.Leads s join e path := by
  simp only [JoinTree.leads_node hresolves]
  constructor
  · rintro ⟨path, ⟨_, hjoin⟩ | ⟨deeper, _, hbelow⟩ | hrest⟩
    · exact Or.inl hjoin
    · exact Or.inr (Or.inl ⟨deeper, hbelow⟩)
    · exact Or.inr (Or.inr ⟨path, hrest⟩)
  · rintro (hjoin | ⟨path, hbelow⟩ | ⟨path, hrest⟩)
    · exact ⟨[name], Or.inl ⟨rfl, hjoin⟩⟩
    · exact ⟨name :: path, Or.inr (Or.inl ⟨path, rfl, hbelow⟩)⟩
    · exact ⟨path, Or.inr (Or.inr hrest)⟩

end Schema

namespace JoinTree

variable {s : Schema} {e : Entity} {join : Join}

/-- The joins to which a tree leads, one for each of its names that resolves. -/
def joins (s : Schema) : JoinTree → Entity → List Join
  | nil, _ => []
  | node name inner rest, e =>
      match e.relationship? name with
      | none => rest.joins s e
      | some r =>
          match s.entity? r.target with
          | none => rest.joins s e
          | some target => .related e r target :: inner.joins s target ++ rest.joins s e

theorem mem_joins {tree : JoinTree} : join ∈ tree.joins s e ↔ ∃ path, tree.Leads s join e path := by
  induction tree generalizing e with
  | nil => simp [joins, Leads]
  | node name inner rest ihInner ihRest =>
      have hunresolved : (∀ r target, ¬ s.Resolves e name r target) →
          ((∃ path, rest.Leads s join e path) ↔
            ∃ path, (node name inner rest).Leads s join e path) := by
        intro hnone
        refine exists_congr fun path => ⟨Or.inr, fun hleads => hleads.resolve_left ?_⟩
        rintro ⟨r, target, hresolves, _⟩
        exact hnone r target hresolves
      unfold joins
      split
      next hr =>
        rw [ihRest]
        refine hunresolved fun r target hresolves => ?_
        rw [hresolves.1] at hr
        cases hr
      next r hr =>
        split
        next htarget =>
          rw [ihRest]
          refine hunresolved fun r' target hresolves => ?_
          obtain rfl := Option.some.inj (hr.symm.trans hresolves.1)
          rw [hresolves.2] at htarget
          cases htarget
        next target htarget =>
          rw [Schema.exists_leads_node ⟨hr, htarget⟩, List.cons_append, List.mem_cons,
            List.mem_append, ihInner, ihRest]

/-- The joins to which a tree leads start from tables that are there already. -/
theorem inOrder_joins {tree : JoinTree} {known : List String} (hknown : e.table ∈ known) :
    Join.InOrder known (tree.joins s e) := by
  induction tree generalizing e known with
  | nil => trivial
  | node name inner rest ihInner ihRest =>
      unfold joins
      split
      · exact ihRest hknown
      · split
        · exact ihRest hknown
        · exact ⟨hknown, (ihInner List.mem_cons_self).append
            (ihRest (List.mem_cons_of_mem _ hknown))⟩

/-- If the names of a tree lead to different tables, none of them that of the root, each join has
a table of its own. -/
theorem hasOwnTables_of_nodup {tree : JoinTree}
    (h : (e.table :: (tree.joins s e).map Join.table).Nodup) : tree.HasOwnTables s e := by
  obtain ⟨hroot, hdistinct⟩ := List.nodup_cons.mp h
  constructor
  · intro path path' join join' hleads hleads' htable
    exact List.inj_on_of_nodup_map hdistinct (mem_joins.mpr ⟨path, hleads⟩)
      (mem_joins.mpr ⟨path', hleads'⟩) htable
  · intro path join hleads htable
    exact hroot (htable ▸ List.mem_map_of_mem (mem_joins.mpr ⟨path, hleads⟩))

end JoinTree

namespace Schema

variable {s : Schema} {entity : String} {e : Entity} {join : Join}

/-- Joining along a list adds the joins to which its tree leads. -/
theorem applyJoins_eq {list : JoinList} {statement joined : Sql.Select}
    (hentity : s.entity? entity = some e) (h : s.applyJoins list entity statement = .ok joined) :
    joined = { statement with joins := statement.joins ++ list.toTree.joins s e } := by
  induction list generalizing entity e statement joined with
  | nil =>
      obtain rfl := Except.ok.inj h
      simp [JoinList.toTree, JoinTree.joins]
  | name name rest ih =>
      simp only [applyJoins, Outcome.bind_eq_ok, joinAlong_eq_ok] at h
      obtain ⟨join, ⟨e', r, target, hentity', ⟨hr, htarget⟩, rfl⟩, h⟩ := h
      obtain rfl := Option.some.inj (hentity.symm.trans hentity')
      rw [ih hentity h]
      simp [JoinList.toTree, JoinTree.joins, hr, htarget, Sql.Select.join]
  | path name inner rest ihInner ihRest =>
      simp only [applyJoins, Outcome.bind_eq_ok, joinAlong_eq_ok, target_eq_ok] at h
      obtain ⟨join, ⟨e', r, target, hentity', ⟨hr, htarget⟩, rfl⟩, targetName,
        ⟨e'', r', hentity'', hr', rfl⟩, middle, hmiddle, h⟩ := h
      -- the name is looked up twice, for the join and for where to go on
      obtain rfl := Option.some.inj (hentity.symm.trans hentity')
      obtain rfl := Option.some.inj (hentity.symm.trans hentity'')
      obtain rfl := Option.some.inj (hr.symm.trans hr')
      rw [ihRest hentity h, ihInner htarget hmiddle]
      simp [JoinList.toTree, JoinTree.joins, hr, htarget, Sql.Select.join]

end Schema

end RowPolicy
