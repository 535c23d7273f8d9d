import RowPolicy.Proofs.JoinUnion

/-!
# The joins along a list

A statement joined along a list asks for one join for each of the names in it, in the order in
which they are written, and every join starts from the entity to which the names above it lead. It
carries out those that follow a relationship which no join before them follows. The list crosses to
many rows if one of its joins does.
-/

namespace RowPolicy

open Sql (Join Select)

/-! ## Leaving out repetitions -/

namespace Sql.Join

variable {joins : List Join}

/-- Whether no join of a list follows the relationship of an entity that one before it follows. -/
def RepeatNone (joins : List Join) : Prop :=
  joins.Pairwise fun join later => later.repeats join = false

/-- Whether some joins are what is left of those asked for without repetitions: they stand in the
same order, none repeats another, and every join left out repeats one of them. -/
structure IsReduction (asked carried : List Join) : Prop where
  sublist : carried.Sublist asked
  repeatNone : RepeatNone carried
  covered : ∀ join ∈ asked, join ∈ carried ∨ ∃ other ∈ carried, join.repeats other = true

theorem isReduction_eraseDupsBy (joins : List Join) :
    IsReduction joins (joins.eraseDupsBy repeats) := by
  induction hlength : joins.length using Nat.strongRecOn generalizing joins with
  | _ n ih =>
    subst hlength
    cases joins with
    | nil => exact ⟨List.Sublist.refl _, .nil, by simp⟩
    | cons first rest =>
        obtain ⟨hsublist, _, hcovered⟩ := ih _ (Nat.lt_succ_of_le (List.length_filter_le _ rest))
          (rest.filter fun join => join.repeats first = false) rfl
        refine ⟨?_, (eraseDupsBy_spec repeats _).2, ?_⟩
        · rw [List.eraseDupsBy_cons]
          exact (hsublist.trans List.filter_sublist).cons_cons first
        · intro join hjoin
          rw [List.eraseDupsBy_cons]
          rcases List.mem_cons.mp hjoin with rfl | hrest
          · exact Or.inl List.mem_cons_self
          by_cases hrepeats : join.repeats first = true
          · exact Or.inr ⟨first, List.mem_cons_self, hrepeats⟩
          · have hkept : join ∈ rest.filter fun join => join.repeats first = false := by
              simp [hrest, hrepeats]
            rcases hcovered join hkept with hmem | ⟨other, hother, hagain⟩
            · exact Or.inl (List.mem_cons_of_mem _ hmem)
            · exact Or.inr ⟨other, List.mem_cons_of_mem _ hother, hagain⟩

theorem eraseDupsBy_of_repeatNone (h : RepeatNone joins) : joins.eraseDupsBy repeats = joins := by
  induction joins with
  | nil => rfl
  | cons first rest ih =>
      obtain ⟨hfirst, hrest⟩ := List.pairwise_cons.mp h
      have hfilter : rest.filter (fun join => join.repeats first = false) = rest := by
        rw [List.filter_eq_self]
        intro join hjoin
        simp [hfirst join hjoin]
      rw [List.eraseDupsBy_cons, hfilter, ih hrest]

end Sql.Join

/-! ## The join at the end of a path -/

namespace Schema

/-- Whether a join is the one at the end of a path: along the relationship named last, of the
entity to which the names before it lead. -/
def Follows (s : Schema) (entity : String) (path : List String) (join : Join) : Prop :=
  ∃ front name source r target, path = front ++ [name] ∧ s.goal? entity front = some source ∧
    s.Resolves source name r target ∧ join = .related source r target

variable {s : Schema} {entity name : String} {e target : Entity} {r : Relationship}
  {path : List String} {join : Join}

theorem Follows.exists_entity (h : s.Follows entity path join) :
    ∃ e, s.entity? entity = some e := by
  obtain ⟨front, name, source, r, target, _, hgoal, _⟩ := h
  obtain ⟨e, hentity, _⟩ := Option.bind_eq_some_iff.mp hgoal
  exact ⟨e, hentity⟩

theorem follows_singleton (hentity : s.entity? entity = some e) :
    s.Follows entity [name] join ↔
      ∃ r target, s.Resolves e name r target ∧ join = .related e r target := by
  have hroot : s.goal? entity [] = some e := by simp [goal?, hentity]
  constructor
  · rintro ⟨front, last, source, r, target, hpath, hgoal, hresolves, rfl⟩
    have hsplit : [] ++ [name] = front ++ [last] := hpath
    obtain ⟨rfl, hname⟩ := List.append_inj' hsplit rfl
    obtain rfl := (List.cons.inj hname).1
    obtain rfl := Option.some.inj (hroot.symm.trans hgoal)
    exact ⟨r, target, hresolves, rfl⟩
  · rintro ⟨r, target, hresolves, rfl⟩
    exact ⟨[], name, e, r, target, rfl, hroot, hresolves, rfl⟩

/-- A longer path goes on from the entity to which its first name leads. -/
theorem follows_cons (hentity : s.entity? entity = some e) (hresolves : s.Resolves e name r target)
    (hpath : path ≠ []) : s.Follows entity (name :: path) join ↔ s.Follows r.target path join := by
  have hgoal : ∀ front, s.goal? entity (name :: front) = s.goal? r.target front := by
    intro front
    simp [goal?_cons, hentity, hresolves.1]
  constructor
  · rintro ⟨front, last, source, r', target', heq, hsource, hlast, hjoin⟩
    cases front with
    | nil => exact (hpath (List.cons.inj heq).2).elim
    | cons first front =>
        obtain ⟨rfl, rfl⟩ := List.cons.inj heq
        exact ⟨front, last, source, r', target', rfl, (hgoal front).symm.trans hsource, hlast,
          hjoin⟩
  · rintro ⟨front, last, source, r', target', rfl, hsource, hlast, hjoin⟩
    exact ⟨name :: front, last, source, r', target', rfl, (hgoal front).trans hsource, hlast,
      hjoin⟩

end Schema

namespace JoinTree

variable {s : Schema} {entity : String} {e : Entity} {tree : JoinTree}

/-- The names of a tree resolve if there is a join at the end of each of its paths. -/
theorem isResolved_of_follows (hentity : s.entity? entity = some e)
    (h : ∀ path ∈ tree.paths, ∃ join, s.Follows entity path join) : tree.IsResolved s e := by
  induction tree generalizing entity e with
  | nil => trivial
  | node name inner rest ihInner ihRest =>
      obtain ⟨join, hhere⟩ := h [name] (by simp [paths])
      obtain ⟨r, target, hresolves, _⟩ := (Schema.follows_singleton hentity).mp hhere
      refine ⟨⟨r, target, hresolves, ihInner hresolves.2 ?_⟩, ihRest hentity ?_⟩
      · intro path hpath
        obtain ⟨join, hfollows⟩ := h (name :: path) (by simp [paths, hpath])
        have hne := ne_nil_of_mem_paths hpath
        exact ⟨join, (Schema.follows_cons hentity hresolves hne).mp hfollows⟩
      · intro path hpath
        exact h path (by simp [paths, hpath])

/-- The joins of a tree whose names resolve are those at the end of its paths, one for each. -/
theorem forall₂_follows (hentity : s.entity? entity = some e) (hresolved : tree.IsResolved s e) :
    List.Forall₂ (s.Follows entity) tree.paths (tree.joins s e) := by
  induction tree generalizing entity e with
  | nil => exact .nil
  | node name inner rest ihInner ihRest =>
      obtain ⟨⟨r, target, hresolves, hinner⟩, hrest⟩ := hresolved
      have hbelow : List.Forall₂ (s.Follows entity) (inner.paths.map (name :: ·))
          (inner.joins s target) := by
        rw [List.forall₂_map_left_iff]
        refine (List.forall₂_iff_zip.mp (ihInner hresolves.2 hinner)).elim ?_
        intro hlength hzip
        refine List.forall₂_iff_zip.mpr ⟨hlength, fun {path join} hmem => ?_⟩
        have hpath := ne_nil_of_mem_paths (List.of_mem_zip hmem).1
        exact (Schema.follows_cons hentity hresolves hpath).mpr (hzip hmem)
      have hhere : s.Follows entity [name] (.related e r target) :=
        (Schema.follows_singleton hentity).mpr ⟨r, target, hresolves, rfl⟩
      have hjoins : (node name inner rest).joins s e =
          .related e r target :: (inner.joins s target ++ rest.joins s e) := by
        simp [joins, hresolves.1, hresolves.2]
      rw [hjoins]
      exact .cons hhere (List.rel_append hbelow (ihRest hentity hrest))

end JoinTree

/-! ## Joining along a list -/

namespace Schema

variable {s : Schema} {list : JoinList} {entity : String} {e : Entity} {statement joined : Select}

/-- A list that goes nowhere joins nothing, on any entity. -/
theorem eq_nil_of_paths (h : list.toTree.paths = []) : list = .nil := by
  cases list with
  | nil => rfl
  | name name rest => simp [JoinList.toTree, JoinTree.paths] at h
  | path name inner rest => simp [JoinList.toTree, JoinTree.paths] at h

/-- A list whose names resolve crosses to many rows if one of its joins does. -/
theorem crossesMany_eq_ok (hentity : s.entity? entity = some e)
    (hresolved : list.toTree.IsResolved s e) : ∃ many, s.crossesMany list entity = .ok many ∧
      (many = true ↔
        ∃ source r target, .related source r target ∈ list.toTree.joins s e ∧ r.toMany = true) := by
  obtain ⟨many, hmany, hcrosses⟩ := exists_crossesMany hentity hresolved
  refine ⟨many, hmany, hcrosses.trans ?_⟩
  unfold JoinTree.CrossesMany
  simp only [← JoinTree.mem_joins]
  constructor
  · rintro ⟨join, hjoin, hto⟩
    obtain ⟨path, hleads⟩ := JoinTree.mem_joins.mp hjoin
    obtain ⟨_, _, source, r, target, _, rfl, _⟩ := hleads.exists_front
    exact ⟨source, r, target, hjoin, by simpa [Join.IsToOne] using hto⟩
  · rintro ⟨source, r, target, hjoin, hmany⟩
    exact ⟨_, hjoin, by simp [Join.IsToOne, hmany]⟩

/-- The joins of a list whose names resolve, one for each name, and what joining along the list
and asking whether it crosses to many rows make of them. -/
theorem exists_joins (h : ∀ path ∈ list.toTree.paths, ∃ join, s.Follows entity path join)
    (statement : Select) : ∃ joins, List.Forall₂ (s.Follows entity) list.toTree.paths joins ∧
      s.applyJoins list entity statement =
        .ok { statement with joins := statement.joins ++ joins } ∧
      ∃ many, s.crossesMany list entity = .ok many ∧ (many = true ↔
        ∃ source r target, .related source r target ∈ joins ∧ r.toMany = true) := by
  cases hentity : s.entity? entity with
  | none =>
      -- no path starts from an entity that is not stored
      have hnone : list.toTree.paths = [] := by
        rw [List.eq_nil_iff_forall_not_mem]
        intro path hpath
        obtain ⟨join, hfollows⟩ := h path hpath
        obtain ⟨e, he⟩ := hfollows.exists_entity
        rw [hentity] at he
        cases he
      obtain rfl := eq_nil_of_paths hnone
      exact ⟨[], .nil, by simp [applyJoins], false, rfl, by simp⟩
  | some e =>
      have hresolved := JoinTree.isResolved_of_follows hentity h
      obtain ⟨joined, hjoined⟩ := exists_applyJoins hentity hresolved statement
      rw [applyJoins_eq hentity hjoined] at hjoined
      exact ⟨_, JoinTree.forall₂_follows hentity hresolved, hjoined,
        crossesMany_eq_ok hentity hresolved⟩

/-- Joining along a list whose names resolve asks for one join at the end of each path, in the
order of the paths, and changes nothing else. Carried out are those joins that are left without
repetitions, which are all of them if none repeats another. The list crosses to many rows if one of
its joins does. -/
theorem joins_along_paths (s : Schema) (list : JoinList) (entity : String) (statement : Select)
    (h : ∀ path ∈ list.toTree.paths, ∃ join, s.Follows entity path join) :
    ∃ joins joined, List.Forall₂ (s.Follows entity) list.toTree.paths joins ∧
      s.applyJoins list entity statement = .ok joined ∧
      joined = { statement with joins := statement.joins ++ joins } ∧
      Join.IsReduction (statement.joins ++ joins) joined.distinctJoins ∧
      (Join.RepeatNone (statement.joins ++ joins) →
        joined.distinctJoins = statement.joins ++ joins) ∧
      ∃ many, s.crossesMany list entity = .ok many ∧ (many = true ↔
        ∃ source r target, .related source r target ∈ joins ∧ r.toMany = true) := by
  obtain ⟨joins, hfollows, hjoined, hmany⟩ := exists_joins h statement
  exact ⟨joins, _, hfollows, hjoined, rfl, Join.isReduction_eraseDupsBy _,
    Join.eraseDupsBy_of_repeatNone, hmany⟩

/-- The posts of comments, with the authors and the tags of these posts. -/
def taggedPosts : JoinList := .path "post" (.name "author" (.name "tags" .nil)) .nil

theorem taggedPosts_joins : ∃ joined,
    Sample.schema.applyJoins taggedPosts "Comment"
      { Select.ofEntity Sample.comment with filter := some (.fragment "approved") } = .ok joined ∧
    joined.filter = some (.fragment "approved") ∧
    joined.distinctJoins.map Join.table = ["posts", "users", "tags"] ∧
    Sample.schema.crossesMany taggedPosts "Comment" = .ok true := by
  have hresolves : ∀ path ∈ taggedPosts.toTree.paths,
      ∃ join, Sample.schema.Follows "Comment" path join := by
    intro path hpath
    have hpaths : taggedPosts.toTree.paths = [["post"], ["post", "author"], ["post", "tags"]] := rfl
    rw [hpaths] at hpath
    simp only [List.mem_cons, List.not_mem_nil, or_false] at hpath
    rcases hpath with rfl | rfl | rfl
    · exact ⟨_, [], "post", _, _, _, rfl, rfl, ⟨rfl, rfl⟩, rfl⟩
    · exact ⟨_, ["post"], "author", _, _, _, rfl, rfl, ⟨rfl, rfl⟩, rfl⟩
    · exact ⟨_, ["post"], "tags", _, _, _, rfl, rfl, ⟨rfl, rfl⟩, rfl⟩
  obtain ⟨joins, joined, _, hjoined, rfl, _, hall, many, hmany, hcrosses⟩ :=
    joins_along_paths Sample.schema taggedPosts "Comment"
      { Select.ofEntity Sample.comment with filter := some (.fragment "approved") } hresolves
  obtain ⟨authors, tags, hjoins⟩ : ∃ authors tags, joins =
      [.related Sample.comment Sample.comment.relationships[0] Sample.post,
        .related Sample.post authors Sample.user, .related Sample.post tags Sample.tag] ∧
      authors.name = "author" ∧ tags.name = "tags" ∧ tags.toMany = true :=
    ⟨_, _, congrArg Select.joins (Except.ok.inj hjoined.symm), rfl, rfl, rfl⟩
  obtain ⟨rfl, hauthors, htags, hto⟩ := hjoins
  refine ⟨_, hjoined, rfl, ?_, ?_⟩
  · rw [hall]
    · rfl
    · simp [Join.RepeatNone, Join.repeats, Select.ofEntity, hauthors, htags, Sample.comment,
        Sample.post]
  · rw [hmany, hcrosses.mpr ⟨Sample.post, tags, Sample.tag, by simp, hto⟩]

/-- The posts of comments, the comments on these and the posts of those again. -/
def commentsBeside : JoinList := .path "post" (.path "comments" (.name "post" .nil) .nil) .nil

/-- Three names resolve and three joins are asked for, of which the last one repeats the first and
is not carried out. -/
theorem commentsBeside_joined_twice :
    commentsBeside.toTree.paths =
      [["post"], ["post", "comments"], ["post", "comments", "post"]] ∧
    (∀ path ∈ commentsBeside.toTree.paths,
      ∃ join, Sample.schema.Follows "Comment" path join) ∧
    ∃ joined, Sample.schema.applyJoins commentsBeside "Comment" (.ofEntity Sample.comment) =
        .ok joined ∧
      joined.distinctJoins.map Join.table = ["posts", "comments"] ∧
      joined.literalText = .ok ("SELECT comments.id, comments.body, comments.approved, " ++
        "comments.post_id \nFROM comments JOIN posts ON posts.id = comments.post_id " ++
        "JOIN comments ON posts.id = comments.post_id") := by
  have hpaths : commentsBeside.toTree.paths =
      [["post"], ["post", "comments"], ["post", "comments", "post"]] := rfl
  refine ⟨hpaths, ?_, _, rfl, rfl, by decide +kernel⟩
  intro path hpath
  rw [hpaths] at hpath
  simp only [List.mem_cons, List.not_mem_nil, or_false] at hpath
  rcases hpath with rfl | rfl | rfl
  · exact ⟨_, [], "post", _, _, _, rfl, rfl, ⟨rfl, rfl⟩, rfl⟩
  · exact ⟨_, ["post"], "comments", _, _, _, rfl, rfl, ⟨rfl, rfl⟩, rfl⟩
  · exact ⟨_, ["post", "comments"], "post", _, _, _, rfl, rfl, ⟨rfl, rfl⟩, rfl⟩

end Schema

end RowPolicy
