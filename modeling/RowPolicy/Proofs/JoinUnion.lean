import RowPolicy.Proofs.Traversal

/-!
# The union of association paths

The joins for some rules are the paths of associations in their conditions, each of them once. At
every entity that a path leads to the names stand in the order in which the conditions mention them
first. A name stands alone if no condition goes on from it.
-/

namespace RowPolicy

/-! ## Lists without repetitions -/

section Repetitions

variable {α : Type} [BEq α] [LawfulBEq α] {as bs : List α}

theorem nodup_eraseDups (as : List α) : as.eraseDups.Nodup :=
  (Sql.Join.eraseDupsBy_spec (· == ·) as).2.imp fun hne heq => by simp [heq] at hne

theorem eraseDups_cons_of_not_mem {a : α} (h : a ∉ as) :
    (a :: as).eraseDups = a :: as.eraseDups := by
  have hfilter : as.filter (fun b => !b == a) = as := by
    rw [List.filter_eq_self]
    intro b hb
    have hne : b ≠ a := fun heq => h (heq ▸ hb)
    simpa using hne
  rw [List.eraseDups_cons, hfilter]

theorem eraseDups_of_nodup (h : as.Nodup) : as.eraseDups = as := by
  induction as with
  | nil => rfl
  | cons first rest ih =>
      obtain ⟨hfirst, hrest⟩ := List.nodup_cons.mp h
      rw [eraseDups_cons_of_not_mem hfirst, ih hrest]

theorem eraseDups_append_of_subset (has : as.Nodup) (h : bs ⊆ as) : (as ++ bs).eraseDups = as := by
  have hremove : bs.removeAll as = [] := by
    unfold List.removeAll
    rw [List.filter_eq_nil_iff]
    intro b hb
    simp [h hb]
  rw [List.eraseDups_append, hremove, List.eraseDups_nil, List.append_nil, eraseDups_of_nodup has]

/-- Repetitions in the first part can be left out before the second one is added. -/
theorem eraseDups_eraseDups_append (as bs : List α) :
    (as.eraseDups ++ bs).eraseDups = (as ++ bs).eraseDups := by
  have hremove : bs.removeAll as.eraseDups = bs.removeAll as := by
    unfold List.removeAll
    refine List.filter_congr fun b _ => congrArg (!·) ?_
    rw [Bool.eq_iff_iff, List.elem_iff, List.elem_iff, List.mem_eraseDups]
  rw [List.eraseDups_append, List.eraseDups_append, eraseDups_of_nodup (nodup_eraseDups as),
    hremove]

end Repetitions

/-! ## Names that continue a path -/

/-- The names with which listed paths go on from a given path, in their order. -/
def continuations (paths : List (List String)) (path : List String) : List String :=
  paths.filterMap fun longer => if longer.dropLast = path then longer.getLast? else none

theorem mem_continuations {paths : List (List String)} {path : List String} {name : String} :
    name ∈ continuations paths path ↔ path ++ [name] ∈ paths := by
  simp only [continuations, List.mem_filterMap, Option.ite_none_right_eq_some]
  constructor
  · rintro ⟨longer, hmem, rfl, hlast⟩
    rwa [List.dropLast_append_getLast? name hlast]
  · intro hmem
    exact ⟨_, hmem, by simp⟩

theorem continuations_flatMap {α : Type} (as : List α) (paths : α → List (List String))
    (path : List String) : continuations (as.flatMap paths) path =
      as.flatMap fun a => continuations (paths a) path :=
  List.filterMap_flatMap

namespace JoinTree

variable {name first : String} {inner rest base tree : JoinTree} {path : List String}

/-- The names that continue a path of a tree. -/
def namesAt (tree : JoinTree) (path : List String) : List String := continuations tree.paths path

@[simp] theorem namesAt_nil : nil.namesAt path = [] := rfl

@[simp] theorem namesAt_node_root :
    (node name inner rest).namesAt [] = name :: rest.namesAt [] := by
  have hinner : continuations (inner.paths.map (name :: ·)) [] = [] := by
    rw [List.eq_nil_iff_forall_not_mem]
    intro other hmem
    obtain ⟨deeper, hdeeper, heq⟩ := List.mem_map.mp (mem_continuations.mp hmem)
    exact ne_nil_of_mem_paths hdeeper (List.cons.inj heq).2
  simp only [namesAt, paths, continuations] at hinner ⊢
  rw [List.cons_append, List.filterMap_cons, List.filterMap_append, hinner]
  rfl

@[simp] theorem namesAt_node_cons : (node name inner rest).namesAt (first :: path) =
    (if name = first then inner.namesAt path else []) ++ rest.namesAt (first :: path) := by
  have hinner : continuations (inner.paths.map (name :: ·)) (first :: path) =
      if name = first then inner.namesAt path else [] := by
    unfold continuations namesAt
    rw [List.filterMap_map]
    split
    next hname =>
      refine List.filterMap_congr fun deeper hdeeper => ?_
      obtain ⟨n, further, rfl⟩ := List.exists_cons_of_ne_nil (ne_nil_of_mem_paths hdeeper)
      simp [hname]
    next hname =>
      rw [List.filterMap_eq_nil_iff]
      intro deeper hdeeper
      obtain ⟨n, further, rfl⟩ := List.exists_cons_of_ne_nil (ne_nil_of_mem_paths hdeeper)
      simp [hname]
  simp only [namesAt, paths, continuations] at hinner ⊢
  rw [List.cons_append, List.filterMap_cons, List.filterMap_append, hinner]
  rfl

theorem namesAt_cons_eq_nil (h : first ∉ tree.namesAt []) : tree.namesAt (first :: path) = [] := by
  induction tree with
  | nil => rfl
  | node name inner rest _ ih =>
      rw [namesAt_node_root, List.mem_cons, not_or] at h
      rw [namesAt_node_cons, if_neg (Ne.symm h.1), ih h.2, List.append_nil]

/-! ## Merging -/

/-- Whether no name occurs twice in one place. -/
def IsDistinct (tree : JoinTree) : Prop := ∀ path, (tree.namesAt path).Nodup

theorem IsDistinct.of_eq {names : List String → List String}
    (h : ∀ path, tree.namesAt path = (names path).eraseDups) : tree.IsDistinct := fun path =>
  h path ▸ nodup_eraseDups _

theorem IsDistinct.beside (h : (node name inner rest).IsDistinct) :
    name ∉ rest.namesAt [] ∧ rest.IsDistinct := by
  have hroot := h []
  rw [namesAt_node_root, List.nodup_cons] at hroot
  refine ⟨hroot.1, fun path => ?_⟩
  cases path with
  | nil => exact hroot.2
  | cons first path =>
      have hnames := h (first :: path)
      rw [namesAt_node_cons] at hnames
      exact (List.nodup_append.mp hnames).2.1

theorem IsDistinct.below (h : (node name inner rest).IsDistinct) : inner.IsDistinct := by
  intro path
  have hnames := h (name :: path)
  rw [namesAt_node_cons, if_pos rfl] at hnames
  exact (List.nodup_append.mp hnames).1

theorem IsDistinct.namesAt_below (h : (node name inner rest).IsDistinct) :
    (node name inner rest).namesAt (name :: path) = inner.namesAt path := by
  rw [namesAt_node_cons, if_pos rfl, namesAt_cons_eq_nil h.beside.1, List.append_nil]

/-- Changing what is below a name adds this name, and below it what the change adds. -/
theorem namesAt_graft {change : JoinTree → JoinTree} (hchange : ∀ known : JoinTree,
      known.IsDistinct → ∀ path, (change known).namesAt path =
        (known.namesAt path ++ inner.namesAt path).eraseDups)
    (hbase : base.IsDistinct) (path : List String) : (base.graft name change).namesAt path =
      (base.namesAt path ++ (node name inner nil).namesAt path).eraseDups := by
  induction base generalizing path with
  | nil =>
      cases path with
      | nil =>
          simp only [graft, namesAt_node_root, namesAt_nil]
          rfl
      | cons first path =>
          have hnew := hchange nil (fun _ => List.nodup_nil) path
          simp only [graft, namesAt_node_cons, hnew]
          split <;> simp
  | node n known rest _ ih =>
      obtain ⟨hn, hrest⟩ := hbase.beside
      unfold graft
      split
      next hname =>
        subst hname
        -- the name is not found again beside this one, so nothing else goes on from it
        cases path with
        | nil =>
            have hroot := hbase []
            rw [namesAt_node_root] at hroot
            simp only [namesAt_node_root, namesAt_nil]
            exact (eraseDups_append_of_subset hroot (by simp)).symm
        | cons first path =>
            by_cases hfirst : n = first
            · subst hfirst
              simp [namesAt_cons_eq_nil hn, hchange known hbase.below path]
            · simp [hfirst, eraseDups_of_nodup (hrest (first :: path))]
      next hname =>
        cases path with
        | nil =>
            have hnot : n ∉ rest.namesAt [] ++ [name] := by simp [hn, hname]
            simp only [namesAt_node_root, namesAt_nil, ih hrest, List.cons_append]
            exact (eraseDups_cons_of_not_mem hnot).symm
        | cons first path =>
            rw [namesAt_node_cons, ih hrest]
            by_cases hfirst : n = first
            · subst hfirst
              simp [namesAt_cons_eq_nil hn, Ne.symm hname,
                eraseDups_of_nodup (hbase.below path)]
            · simp [hfirst]

theorem namesAt_merge (hbase : base.IsDistinct) (path : List String) :
    (base.merge tree).namesAt path = (base.namesAt path ++ tree.namesAt path).eraseDups := by
  induction tree generalizing base path with
  | nil => simp [eraseDups_of_nodup (hbase path)]
  | node name inner rest ihInner ihRest =>
      -- the tree with the first name grafted repeats nothing either, so the rest can be added
      have hgraft : ∀ path, (base.graft name fun known => known.merge inner).namesAt path =
          (base.namesAt path ++ (node name inner nil).namesAt path).eraseDups :=
        namesAt_graft (fun known hknown path => ihInner hknown path) hbase
      unfold merge
      rw [ihRest (.of_eq hgraft), hgraft, eraseDups_eraseDups_append, List.append_assoc]
      cases path <;> simp

theorem namesAt_mergeAll (trees : List JoinTree) (path : List String) :
    (mergeAll trees).namesAt path = (trees.flatMap fun tree => tree.namesAt path).eraseDups := by
  have hfold : ∀ base : JoinTree, base.IsDistinct → (trees.foldl merge base).namesAt path =
      (base.namesAt path ++ trees.flatMap fun tree => tree.namesAt path).eraseDups := by
    induction trees with
    | nil =>
        intro base hbase
        simp [eraseDups_of_nodup (hbase path)]
    | cons tree rest ih =>
        intro base hbase
        have hmerge : ∀ path, (base.merge tree).namesAt path =
            (base.namesAt path ++ tree.namesAt path).eraseDups := namesAt_merge hbase
        rw [List.foldl_cons, ih _ (.of_eq hmerge), hmerge, eraseDups_eraseDups_append,
          List.flatMap_cons, List.append_assoc]
  exact hfold nil fun _ => List.nodup_nil

/-- The path to a name begins with a name of the first level. -/
theorem head_mem_namesAt (h : first :: path ∈ tree.paths) : first ∈ tree.namesAt [] := by
  induction tree with
  | nil => cases h
  | node name inner rest _ ih =>
      rw [namesAt_node_root, List.mem_cons]
      rcases mem_paths_node.mp h with heq | ⟨deeper, _, heq⟩ | hrest
      · exact Or.inl (List.cons.inj heq).1
      · exact Or.inl (List.cons.inj heq).1.symm
      · exact Or.inr (ih hrest)

theorem isEmpty_namesAt_root (tree : JoinTree) : (tree.namesAt []).isEmpty = tree.isEmpty := by
  cases tree <;> simp [isEmpty]

theorem paths_eq_nil : tree.paths = [] ↔ tree = nil := by
  cases tree with
  | nil => exact iff_of_true rfl rfl
  | node name inner rest => simp [paths]

end JoinTree

/-! ## The form in which joins are reported -/

/-- The paths of names that lead to the associations of a condition. -/
def Condition.associationPaths : Condition → List (List String)
  | mapping tree => tree.associationPaths
  | fragment _ | scope _ => []

theorem Condition.paths_associations (c : Condition) :
    c.associations.paths = c.associationPaths := by
  cases c with
  | mapping tree => exact tree.paths_associations
  | fragment body => rfl
  | scope body => rfl

namespace JoinList

/-- The entries of a list, each with the path that leads to it and whether it stands alone. -/
def entries : JoinList → List (List String × Bool)
  | nil => []
  | name n rest => ([n], true) :: rest.entries
  | path n inner rest => ([n], false) :: inner.entries.map (Prod.map (n :: ·) id) ++ rest.entries

theorem entries_ofTree_node (n : String) (inner rest : JoinTree) :
    (ofTree (.node n inner rest)).entries = ([n], inner.isEmpty) ::
      (ofTree inner).entries.map (Prod.map (n :: ·) id) ++ (ofTree rest).entries := by
  cases inner <;> rfl

/-- Without repetitions an entry of a tree's list stands alone if no name continues its path. -/
theorem entries_ofTree {tree : JoinTree} (h : tree.IsDistinct) : (ofTree tree).entries =
    tree.paths.map fun path => (path, (tree.namesAt path).isEmpty) := by
  induction tree with
  | nil => rfl
  | node n inner rest ihInner ihRest =>
      obtain ⟨hn, hrest⟩ := h.beside
      have hhere : ∀ path, (JoinTree.node n inner rest).namesAt (n :: path) = inner.namesAt path :=
        fun _ => h.namesAt_below
      have hbeside : ∀ path ∈ rest.paths,
          (JoinTree.node n inner rest).namesAt path = rest.namesAt path := by
        intro path hpath
        obtain ⟨first, deeper, rfl⟩ :=
          List.exists_cons_of_ne_nil (JoinTree.ne_nil_of_mem_paths hpath)
        have hne : n ≠ first := fun heq => hn (heq ▸ JoinTree.head_mem_namesAt hpath)
        rw [JoinTree.namesAt_node_cons, if_neg hne, List.nil_append]
      rw [entries_ofTree_node, ihInner h.below, ihRest hrest, JoinTree.paths, List.map_append,
        List.map_cons, List.map_map, List.map_map, hhere, JoinTree.isEmpty_namesAt_root]
      congr 1
      · refine congrArg _ (List.map_congr_left fun path _ => ?_)
        simp [hhere]
      · exact List.map_congr_left fun path hpath => by rw [hbeside path hpath]

variable {rules : List Rule} {list : JoinList}

theorem ofRules_eq_none :
    ofRules rules = none ↔ JoinTree.mergeAll (rules.map (·.condition.associations)) = .nil := by
  unfold ofRules
  split
  next h => exact iff_of_true rfl h
  next h => exact iff_of_false (Option.some_ne_none _) h

theorem ofRules_eq_some (h : ofRules rules = some list) :
    list = ofTree (JoinTree.mergeAll (rules.map (·.condition.associations))) := by
  unfold ofRules at h
  split at h
  next => cases h
  next => exact (Option.some.inj h).symm

/-- The joins for some rules are none exactly if no condition mentions an association. Otherwise
their paths are those of the conditions. In each place no name occurs twice, the names are in the
order in which the conditions, rule by rule, mention them first, and those alone from which no
condition goes on stand alone. -/
theorem ofRules_union (rules : List Rule) :
    (ofRules rules = none ↔ ∀ rule ∈ rules, rule.condition.associationPaths = []) ∧
    ∀ list, ofRules rules = some list →
      (∀ path, path ∈ list.toTree.paths ↔
        ∃ rule ∈ rules, path ∈ rule.condition.associationPaths) ∧
      (∀ path, (list.toTree.namesAt path).Nodup ∧ list.toTree.namesAt path =
        (continuations (rules.flatMap (·.condition.associationPaths)) path).eraseDups) ∧
      list.entries = list.toTree.paths.map fun path =>
        (path, (continuations (rules.flatMap (·.condition.associationPaths)) path).isEmpty) := by
  generalize hmerged : JoinTree.mergeAll (rules.map (·.condition.associations)) = merged
  have hpaths : ∀ path, path ∈ merged.paths ↔
      ∃ rule ∈ rules, path ∈ rule.condition.associationPaths := by
    intro path
    rw [← hmerged, JoinTree.mem_paths_mergeAll]
    simp [Condition.paths_associations]
  have hnames : ∀ path, merged.namesAt path =
      (continuations (rules.flatMap (·.condition.associationPaths)) path).eraseDups := by
    intro path
    rw [← hmerged, JoinTree.namesAt_mergeAll, List.flatMap_map, continuations_flatMap]
    simp only [JoinTree.namesAt, Condition.paths_associations]
  constructor
  · rw [ofRules_eq_none, hmerged, ← JoinTree.paths_eq_nil, List.eq_nil_iff_forall_not_mem]
    simp only [hpaths, List.eq_nil_iff_forall_not_mem, not_exists, not_and]
    exact ⟨fun h rule hrule path => h path rule hrule, fun h path rule hrule => h rule hrule path⟩
  · intro list hlist
    obtain rfl := hmerged ▸ ofRules_eq_some hlist
    have hdistinct : merged.IsDistinct := .of_eq hnames
    rw [toTree_ofTree]
    refine ⟨hpaths, fun path => ⟨hdistinct path, hnames path⟩, ?_⟩
    rw [entries_ofTree hdistinct]
    refine List.map_congr_left fun path _ => Prod.ext rfl ?_
    rw [hnames, Bool.eq_iff_iff]
    simp only [List.isEmpty_iff, List.eq_nil_iff_forall_not_mem, List.mem_eraseDups]

/-- Posts with tags and an author may be read, but not those of an author with an organization. -/
def taggedReading : List Rule :=
  [Sample.readRule true "Post" (.association "tags" .nil (.association "author" .nil .nil)),
    Sample.readRule false "Post" (.association "author" (.association "organization" .nil .nil)
      (.association "tags" .nil .nil))]

theorem taggedReading_union : ∃ list, ofRules taggedReading = some list ∧
    list.toTree.namesAt [] = ["tags", "author"] ∧
    list.entries =
      [(["tags"], true), (["author"], false), (["author", "organization"], true)] := by
  obtain ⟨list, hlist⟩ : ∃ list, ofRules taggedReading = some list := ⟨_, rfl⟩
  obtain ⟨_, hjoins⟩ := ofRules_union taggedReading
  obtain ⟨_, hnames, hentries⟩ := hjoins list hlist
  refine ⟨list, hlist, (hnames []).2.trans (by decide), ?_⟩
  rw [hentries, ofRules_eq_some hlist]
  decide

end JoinList

end RowPolicy
