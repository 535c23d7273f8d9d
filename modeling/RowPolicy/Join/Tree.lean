/-!
# Trees of association names

Rules reach other tables through associations, and associations of associations. The
names that some rules mention form a tree; trees of several rules are merged, so that
every path is joined once. A join list is the same tree in the form in which it is
reported: a name that leads nowhere else stands alone.
-/

namespace RowPolicy

/-- A tree of association names: the names at one entity in order, each with the names
below it. -/
inductive JoinTree where
  | nil
  | node (name : String) (inner rest : JoinTree)
  deriving DecidableEq, Repr

namespace JoinTree

instance : Inhabited JoinTree := ⟨nil⟩

/-- Whether no name occurs. -/
def isEmpty : JoinTree → Bool
  | nil => true
  | node _ _ _ => false

/-- The names of a tree's first level. -/
def names : JoinTree → List String
  | nil => []
  | node name _ rest => name :: rest.names

/-- Change what is below `name`. A new name goes to the end, with what `change` makes
of the empty tree. -/
def graft (name : String) (change : JoinTree → JoinTree) : JoinTree → JoinTree
  | nil => node name (change nil) nil
  | node n inner rest =>
      if n = name then node n (change inner) rest else node n inner (graft name change rest)

/-- Add all paths of the second tree to the first. Known names keep their place. -/
def merge : JoinTree → JoinTree → JoinTree
  | base, nil => base
  | base, node name inner rest => merge (base.graft name fun known => merge known inner) rest

@[simp] theorem merge_nil (base : JoinTree) : base.merge nil = base := by
  unfold merge
  rfl

/-- The tree with all paths of some trees, names in order of first occurrence. -/
def mergeAll (trees : List JoinTree) : JoinTree := trees.foldl merge nil

/-- The paths of a tree: each name, followed by the paths that continue it. -/
def paths : JoinTree → List (List String)
  | nil => []
  | node name inner rest => [name] :: inner.paths.map (name :: ·) ++ rest.paths

end JoinTree

/-- A tree of association names in which names without continuation stand alone. -/
inductive JoinList where
  | nil
  | name (name : String) (rest : JoinList)
  | path (name : String) (inner rest : JoinList)
  deriving DecidableEq, Repr

namespace JoinList

/-- The list form of a tree. -/
def ofTree : JoinTree → JoinList
  | .nil => nil
  | .node n .nil rest => name n (ofTree rest)
  | .node n inner rest => path n (ofTree inner) (ofTree rest)

/-- The tree that a list describes. -/
def toTree : JoinList → JoinTree
  | nil => .nil
  | name n rest => .node n .nil rest.toTree
  | path n inner rest => .node n inner.toTree rest.toTree

/-- Writing a tree as a list loses nothing. -/
@[simp] theorem toTree_ofTree (tree : JoinTree) : (ofTree tree).toTree = tree := by
  induction tree with
  | nil => rfl
  | node n inner rest hinner hrest =>
      cases inner with
      | nil => simp [ofTree, toTree, hrest]
      | node m deeper further => simp [ofTree, toTree, hrest, hinner]

end JoinList

end RowPolicy
