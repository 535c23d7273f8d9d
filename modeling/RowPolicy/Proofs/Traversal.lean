import RowPolicy.Proofs.ProxyStatement
import RowPolicy.Proofs.Resolving

/-!
# The order in which a condition is flattened

Every association of a condition is looked up on the entity to which those above it lead, before
the associations below it and those that follow. The first one that is not there is reported. If
all are there, the entries of the filter are the literal entries in the same order, each under the
table of the entity on which it stands.
-/

namespace RowPolicy

/-! ## The first failure -/

namespace Outcome

variable {ε α β : Type} {x : Except ε α}

/-- The error in which a computation ends, if it fails. -/
def failure? : Except ε α → Option ε
  | .ok _ => none
  | .error e => some e

theorem failure?_eq_some {e : ε} : failure? x = some e ↔ x = .error e := by
  cases x <;> simp [failure?]

theorem failure?_eq_none : failure? x = none ↔ ∃ a, x = .ok a := by
  cases x <;> simp [failure?]

/-- What follows can only fail where what comes first does not. -/
theorem failure?_bind {f : α → Except ε β} {next : Option ε}
    (h : ∀ a, x = .ok a → failure? (f a) = next) :
    failure? (x >>= f) = (failure? x).or next := by
  cases x with
  | error e => rfl
  | ok a => exact h a rfl

end Outcome

open Outcome (failure? failure?_eq_some failure?_eq_none failure?_bind)

/-! ## The associations of a condition -/

namespace ConditionTree

/-- The paths of names that lead to the associations of a condition, each before those that go
on from there. -/
def associationPaths : ConditionTree → List (List String)
  | nil => []
  | literal _ _ rest => rest.associationPaths
  | association name inner rest =>
      [name] :: inner.associationPaths.map (name :: ·) ++ rest.associationPaths

theorem paths_associations (tree : ConditionTree) :
    tree.associations.paths = tree.associationPaths := by
  induction tree with
  | nil => rfl
  | literal name value rest ih => exact ih
  | association name inner rest ihInner ihRest =>
      simp only [associations, JoinTree.paths, associationPaths, ihInner, ihRest]

/-- In two lists one after the other an element stands in the first or in the second one. -/
theorem exists_of_append_eq {α : Type} {first second before after : List α} {a : α}
    (h : first ++ second = before ++ a :: after) :
    (∃ rest, first = before ++ a :: rest) ∨
      ∃ rest, before = first ++ rest ∧ second = rest ++ a :: after := by
  rcases List.append_eq_append_iff.mp h with ⟨rest, hbefore, hsecond⟩ | ⟨rest, hfirst, hafter⟩
  · exact Or.inr ⟨rest, hbefore, hsecond⟩
  · rcases List.cons_eq_append_iff.mp hafter with ⟨rfl, hsecond⟩ | ⟨rest, rfl, _⟩
    · exact Or.inr ⟨[], by simpa using hfirst.symm, hsecond⟩
    · exact Or.inl ⟨rest, hfirst⟩

theorem ne_nil_of_mem {tree : ConditionTree} {path : List String}
    (h : path ∈ tree.associationPaths) : path ≠ [] := by
  rw [← paths_associations] at h
  exact JoinTree.ne_nil_of_mem_paths h

/-- The association above another one comes before it. -/
theorem front_mem_before {tree : ConditionTree} {before after : List (List String)}
    {front : List String} {name : String} (hfront : front ≠ [])
    (h : tree.associationPaths = before ++ (front ++ [name]) :: after) : front ∈ before := by
  induction tree generalizing before after front with
  | nil => simp [associationPaths] at h
  | literal n value rest ih => exact ih hfront h
  | association n inner rest ihInner ihRest =>
      rcases exists_of_append_eq h with ⟨remaining, hhead⟩ | ⟨later, rfl, hlater⟩
      · rcases List.cons_eq_append_iff.mp hhead with ⟨_, hhere⟩ | ⟨below, rfl, hbelow⟩
        · have hname : front ++ [name] = [] ++ [n] := (List.cons.inj hhere).1
          exact (hfront (List.append_inj' hname rfl).1).elim
        · obtain ⟨above, further, hinner, rfl, hfurther⟩ := List.map_eq_append_iff.mp hbelow
          obtain ⟨path, _, rfl, hpath, _⟩ := List.map_eq_cons_iff.mp hfurther
          obtain ⟨first, front, rfl⟩ := List.exists_cons_of_ne_nil hfront
          obtain ⟨rfl, rfl⟩ := List.cons.inj hpath
          by_cases hnil : front = []
          · exact hnil ▸ List.mem_cons_self
          · exact List.mem_cons_of_mem _ (List.mem_map_of_mem (ihInner hnil hinner))
      · exact List.mem_append_right _ (ihRest hfront hlater)

end ConditionTree

/-! ## Looking up associations -/

namespace Naming

variable {n : Naming} {qualify : Bool} {entity : String}

/-- Whether every association that has a target has the table of that target. -/
def HasTables (n : Naming) : Prop :=
  ∀ entity name target, n.target entity name = .ok target →
    ∃ table, n.targetTable entity name = .ok table

theorem reach_cons (entity name : String) (path : List String) :
    n.reach entity (name :: path) = n.target entity name >>= fun target => n.reach target path :=
  rfl

theorem reach_concat_eq (entity : String) (front : List String) (name : String) :
    n.reach entity (front ++ [name]) =
      n.reach entity front >>= fun source => n.target source name := by
  simp [reach, List.foldlM_append]

/-- An association is looked up first, then the associations below it and at last those after
it. -/
theorem failure?_association {inner : ConditionTree} {later : List (List String)} {name : String}
    {acc : Dict String Value} {go : Dict String Value → Except SchemaError (Dict String Value)}
    (hn : n.HasTables)
    (hinner : ∀ target, failure? (n.nested inner target ∅) =
      inner.associationPaths.findSome? fun path => failure? (n.reach target path))
    (hlater : ∀ acc, failure? (go acc) =
      later.findSome? fun path => failure? (n.reach entity path)) :
    failure? (n.enter entity name inner.literals (fun target => n.nested inner target ∅) acc
        >>= go) =
      ([name] :: inner.associationPaths.map (name :: ·) ++ later).findSome?
        fun path => failure? (n.reach entity path) := by
  rw [failure?_bind fun acc _ => hlater acc, List.findSome?_append]
  refine congrArg (Option.or · _) ?_
  rw [List.findSome?_cons, List.findSome?_map]
  simp only [Function.comp_def, reach_cons]
  unfold enter
  cases htarget : n.target entity name with
  | error e => rfl
  | ok target =>
      obtain ⟨table, htable⟩ := hn entity name target htarget
      rw [htable]
      have hbelow : ∀ mid : Dict String Value, failure? (n.nested inner target ∅ >>= fun below =>
          .ok (mid.update below)) = (failure? (n.nested inner target ∅)).or none :=
        fun mid => failure?_bind fun _ _ => rfl
      exact (hbelow _).trans (by rw [Option.or_none, hinner]; rfl)

variable {tree : ConditionTree} {acc d : Dict String Value}

theorem failure?_nested (hn : n.HasTables) (tree : ConditionTree) (entity : String)
    (acc : Dict String Value) : failure? (n.nested tree entity acc) =
      tree.associationPaths.findSome? fun path => failure? (n.reach entity path) := by
  induction tree generalizing entity acc with
  | nil => rfl
  | literal name value rest ih => exact ih entity acc
  | association name inner rest ihInner ihRest =>
      exact failure?_association hn (fun target => ihInner target ∅) (ihRest entity)

/-- Flattening a condition on an entity with a table fails where the first association does. -/
theorem failure?_flattenInto (hn : n.HasTables)
    (hown : qualify = true → ∃ table, n.table entity = .ok table) (tree : ConditionTree)
    (acc : Dict String Value) : failure? (n.flattenInto qualify entity tree acc) =
      tree.associationPaths.findSome? fun path => failure? (n.reach entity path) := by
  induction tree generalizing acc with
  | nil => rfl
  | literal name value rest ih =>
      have hkey : ∃ key, n.ownKey qualify entity name = .ok key := by
        unfold ownKey
        cases qualify with
        | false => exact ⟨name, rfl⟩
        | true =>
            obtain ⟨table, htable⟩ := hown rfl
            exact ⟨_, Outcome.bind_eq_ok.mpr ⟨table, htable, rfl⟩⟩
      obtain ⟨key, hkey⟩ := hkey
      rw [flattenInto, hkey]
      exact ih _
  | association name inner rest _ ih =>
      exact failure?_association hn (fun target => failure?_nested hn inner target ∅) ih

/-- The association above one that is looked up was found, having been looked up before. -/
theorem exists_reach_front {before after : List (List String)} {front : List String} {name : String}
    (hpaths : tree.associationPaths = before ++ (front ++ [name]) :: after)
    (hbefore : ∀ path ∈ before, ∃ target, n.reach entity path = .ok target) :
    ∃ source, n.reach entity front = .ok source := by
  by_cases hfront : front = []
  · exact ⟨entity, hfront ▸ rfl⟩
  · exact hbefore front (ConditionTree.front_mem_before hfront hpaths)

/-- The first association that is not found is the one that is reported. Its name is looked up
where the associations above it lead. -/
theorem flatten_eq_error (hn : n.HasTables)
    (hown : qualify = true → ∃ table, n.table entity = .ok table) {err : SchemaError} :
    n.flatten qualify entity tree = .error err ↔
      ∃ before front name after, tree.associationPaths = before ++ (front ++ [name]) :: after ∧
        (∀ path ∈ before, ∃ target, n.reach entity path = .ok target) ∧
        ∃ source, n.reach entity front = .ok source ∧ n.target source name = .error err := by
  rw [flatten, ← failure?_eq_some, failure?_flattenInto hn hown, List.findSome?_eq_some_iff]
  simp only [failure?_eq_some, failure?_eq_none]
  constructor
  · rintro ⟨before, path, after, hpaths, hfails, hbefore⟩
    rcases List.eq_nil_or_concat' path with rfl | ⟨front, name, rfl⟩
    · cases hfails
    obtain ⟨source, hsource⟩ := exists_reach_front hpaths hbefore
    rw [reach_concat_eq, hsource] at hfails
    exact ⟨before, front, name, after, hpaths, hbefore, source, hsource, hfails⟩
  · rintro ⟨before, front, name, after, hpaths, hbefore, source, hsource, hfails⟩
    refine ⟨before, front ++ [name], after, hpaths, ?_, hbefore⟩
    rw [reach_concat_eq, hsource]
    exact hfails

end Naming

/-! ## Entities along a path -/

namespace Schema

/-- The entity to which an association of an entity leads. -/
def next? (s : Schema) (e : Entity) (name : String) : Option Entity :=
  (e.relationship? name).bind fun r => s.entity? r.target

/-- The entity to which a path of associations leads. -/
def goal? (s : Schema) (entity : String) (path : List String) : Option Entity :=
  (s.entity? entity).bind fun e => path.foldlM s.next? e

/-- Whether the last name of a path is a relationship of the entity to which the names before it
lead. -/
def IsAssociation (s : Schema) (entity : String) (path : List String) : Prop :=
  ∃ front name source, path = front ++ [name] ∧ s.goal? entity front = some source ∧
    (source.relationship? name).isSome = true

/-- What is reported of a name that is no relationship where a path leads. -/
def lookupError (s : Schema) (entity : String) (front : List String) (name : String) :
    SchemaError :=
  match s.goal? entity front with
  | some source => .unknown source.name name
  | none => .unmapped entity name

/-- The reference of a literal entry: under the table of the entity on which it stands, unless
that is the entity asked and its names need no table. -/
def reference (s : Schema) (qualify : Bool) (entity : String) (leaf : Leaf) : String :=
  if leaf.path = [] ∧ qualify = false then leaf.name
  else (s.goal? entity leaf.path).elim leaf.name fun e => qualifiedKey e.table leaf.name

/-- Whether all relationships lead to entities of the schema. -/
def IsClosed (s : Schema) : Prop :=
  ∀ e ∈ s.entities, ∀ r ∈ e.relationships, (s.entity? r.target).isSome = true

instance (s : Schema) : Decidable s.IsClosed :=
  inferInstanceAs (Decidable (∀ e ∈ s.entities, ∀ r ∈ e.relationships,
    (s.entity? r.target).isSome = true))

variable {s : Schema} {entity : String} {e : Entity} {path front : List String} {name : String}
  {err : SchemaError}

theorem table_eq_ok_iff {table : String} :
    s.table entity = .ok table ↔ ∃ e, s.entity? entity = some e ∧ e.table = table := by
  unfold Schema.table
  simp only [Outcome.bind_eq_ok, Outcome.pure_eq_ok, entity_eq_ok]

theorem target_eq_error {source : String} : s.target source name = .error err ↔
    (s.entity? source = none ∧ err = .unmapped source name) ∨
      ∃ e, s.entity? source = some e ∧ e.relationship? name = none ∧
        err = .unknown source name := by
  unfold Schema.target relationship Schema.entity
  cases hentity : s.entity? source with
  | none => simp [bind, Except.bind, eq_comm]
  | some e =>
      cases hr : e.relationship? name with
      | none => simp [bind, Except.bind, hr, throw, throwThe, MonadExceptOf.throw, eq_comm]
      | some r => simp [bind, Except.bind, hr, pure, Except.pure]

theorem goal?_cons (entity name : String) (path : List String) :
    s.goal? entity (name :: path) = (s.entity? entity).bind fun e =>
      (e.relationship? name).bind fun r => s.goal? r.target path := by
  simp [goal?, next?, List.foldlM_cons, Option.bind_assoc]

/-- A path leads to the entity whose name is reached along it. -/
theorem goal?_eq_some : s.goal? entity path = some e ↔
    ∃ source, s.naming.reach entity path = .ok source ∧ s.entity? source = some e := by
  induction path generalizing entity with
  | nil => simp [goal?, Naming.reach, pure, Except.pure]
  | cons name rest ih =>
      have htarget : ∀ {target}, s.naming.target entity name = .ok target ↔ _ := target_eq_ok
      simp only [goal?_cons, Option.bind_eq_some_iff, ih, Naming.reach_cons, Outcome.bind_eq_ok,
        htarget]
      constructor
      · rintro ⟨above, habove, r, hr, source, hreach, hsource⟩
        exact ⟨source, ⟨r.target, ⟨above, r, habove, hr, rfl⟩, hreach⟩, hsource⟩
      · rintro ⟨source, ⟨_, ⟨above, r, habove, hr, rfl⟩, hreach⟩, hsource⟩
        exact ⟨above, habove, r, hr, source, hreach, hsource⟩

/-- The associations of a schema are the paths along which something is reached. -/
theorem isAssociation_iff (hpath : path ≠ []) : s.IsAssociation entity path ↔
    ∃ target, s.naming.reach entity path = .ok target := by
  have htarget : ∀ {source name target}, s.naming.target source name = .ok target ↔ _ :=
    target_eq_ok
  rcases List.eq_nil_or_concat' path with rfl | ⟨front, name, rfl⟩
  · exact (hpath rfl).elim
  simp only [Naming.reach_concat_eq, Outcome.bind_eq_ok, htarget]
  constructor
  · rintro ⟨front', name', e, hsplit, hgoal, hr⟩
    obtain ⟨rfl, hname⟩ := List.append_inj' hsplit rfl
    obtain rfl := (List.cons.inj hname).1
    obtain ⟨source, hreach, hsource⟩ := goal?_eq_some.mp hgoal
    obtain ⟨r, hr⟩ := Option.isSome_iff_exists.mp hr
    exact ⟨r.target, source, hreach, e, r, hsource, hr, rfl⟩
  · rintro ⟨_, source, hreach, e, r, hsource, hr, rfl⟩
    exact ⟨front, name, e, rfl, goal?_eq_some.mpr ⟨source, hreach, hsource⟩, by simp [hr]⟩

section Closed

variable (hs : s.IsClosed)
include hs

theorem IsClosed.hasTables : s.naming.HasTables := by
  intro entity name target htarget
  obtain ⟨e, r, hentity, hr, rfl⟩ := target_eq_ok.mp htarget
  obtain ⟨below, hbelow⟩ := Option.isSome_iff_exists.mp
    (hs e (lists_of_entity? hentity).mem r (List.mem_of_find?_eq_some hr))
  exact ⟨below.table, Resolves.targetTable_eq ⟨hr, hbelow⟩ hentity⟩

/-- What is reached along a path is stored, unless it is the entity asked itself. -/
theorem IsClosed.eq_nil_of_reach {source : String} (h : s.naming.reach entity path = .ok source)
    (hsource : s.entity? source = none) : path = [] := by
  rcases List.eq_nil_or_concat' path with rfl | ⟨front, name, rfl⟩
  · rfl
  · rw [Naming.reach_concat_eq, Outcome.bind_eq_ok] at h
    obtain ⟨above, _, htarget⟩ := h
    obtain ⟨e, r, hentity, hr, rfl⟩ := target_eq_ok.mp htarget
    have hstored := hs e (lists_of_entity? hentity).mem r (List.mem_of_find?_eq_some hr)
    rw [hsource] at hstored
    cases hstored

/-- A name fails where a path leads exactly if it is no relationship there, with the error that
names the entity reached. -/
theorem IsClosed.target_eq_error {source : String}
    (hreach : s.naming.reach entity front = .ok source) : s.target source name = .error err ↔
      ¬ s.IsAssociation entity (front ++ [name]) ∧ err = s.lookupError entity front name := by
  have hfound : s.IsAssociation entity (front ++ [name]) ↔
      ∃ target, s.target source name = .ok target := by
    rw [isAssociation_iff (by simp), Naming.reach_concat_eq, hreach]
    rfl
  have herr : ∀ err, s.target source name = .error err → err = s.lookupError entity front name := by
    intro err h
    unfold lookupError
    rcases Schema.target_eq_error.mp h with ⟨hentity, rfl⟩ | ⟨e, hentity, _, rfl⟩
    · obtain rfl := hs.eq_nil_of_reach hreach hentity
      obtain rfl := Except.ok.inj hreach
      rw [goal?, hentity]
      rfl
    · have hname : e.name = source := by simpa using List.find?_some hentity
      rw [goal?_eq_some.mpr ⟨source, hreach, hentity⟩]
      simp only [hname]
  constructor
  · refine fun h => ⟨fun hassociation => ?_, herr err h⟩
    obtain ⟨target, htarget⟩ := hfound.mp hassociation
    rw [h] at htarget
    cases htarget
  · rintro ⟨hmissing, rfl⟩
    cases htarget : s.target source name with
    | ok target => exact (hmissing (hfound.mpr ⟨target, htarget⟩)).elim
    | error err => rw [herr err htarget]

end Closed

/-- The reference found for a literal entry is the one under the table of its entity. -/
theorem reference_eq {qualify : Bool} {leaf : Leaf} {key : String}
    (h : s.naming.leafKey qualify entity leaf = .ok key) :
    s.reference qualify entity leaf = key := by
  obtain ⟨path, name, value⟩ := leaf
  rcases List.eq_nil_or_concat' path with rfl | ⟨front, last, rfl⟩
  · cases qualify with
    | false => exact Except.ok.inj h
    | true =>
        obtain ⟨table, htable, rfl⟩ := Outcome.map_eq_ok.mp h
        obtain ⟨e, hentity, rfl⟩ := table_eq_ok_iff.mp htable
        simp [reference, goal?, hentity]
  · have htable : ∀ {source table}, s.naming.targetTable source last = .ok table ↔
        ∃ target, s.target source last = .ok target ∧ s.table target = .ok table :=
      Outcome.bind_eq_ok
    simp only [Naming.leafKey, List.getLast?_concat, List.dropLast_concat, Outcome.bind_eq_ok,
      Outcome.pure_eq_ok, htable, table_eq_ok_iff] at h
    obtain ⟨source, hsource, _, ⟨target, htarget, e, hentity, rfl⟩, rfl⟩ := h
    have hgoal : s.goal? entity (front ++ [last]) = some e :=
      goal?_eq_some.mpr ⟨target, Naming.reach_concat hsource htarget, hentity⟩
    simp [reference, hgoal]

end Schema

namespace Naming

variable {s : Schema} {qualify : Bool} {entity : String} {tree : ConditionTree}
  {d : Dict String Value}

/-- The entries of a flattened condition are its literal entries in order, each under its
reference. -/
theorem flatten_eq_ofList (h : s.naming.flatten qualify entity tree = .ok d) :
    d = .ofList (tree.leaves.map fun leaf => (s.reference qualify entity leaf, leaf.value)) := by
  obtain ⟨entries, hentries, rfl⟩ := flattenInto_inserts h
  have hmap : List.Forall₂ Eq
      (tree.leaves.map fun leaf => (s.reference qualify entity leaf, leaf.value)) entries :=
    List.forall₂_map_left_iff.mpr <| hentries.imp fun _ _ hentry =>
      Prod.ext (Schema.reference_eq hentry.1) hentry.2.symm
  rw [List.forall₂_eq_eq_eq] at hmap
  rw [hmap]
  rfl

/-- Flattening a condition succeeds exactly if every association in it is a relationship of the
entity to which those above it lead. If not, the first one that is none is reported, with that
entity. Otherwise the literal entries are inserted in order, each under its reference. -/
theorem flatten_outcome (qualify : Bool) (entity : String) (tree : ConditionTree)
    (hs : s.IsClosed) (hown : qualify = true → (s.entity? entity).isSome = true) :
    ((∃ d, s.naming.flatten qualify entity tree = .ok d) ↔
      ∀ path ∈ tree.associationPaths, s.IsAssociation entity path) ∧
    (∀ err, s.naming.flatten qualify entity tree = .error err ↔
      ∃ before front name after, tree.associationPaths = before ++ (front ++ [name]) :: after ∧
        (∀ path ∈ before, s.IsAssociation entity path) ∧
        ¬ s.IsAssociation entity (front ++ [name]) ∧ err = s.lookupError entity front name) ∧
    ∀ d, s.naming.flatten qualify entity tree = .ok d →
      d = .ofList (tree.leaves.map fun leaf => (s.reference qualify entity leaf, leaf.value)) := by
  have htable : qualify = true → ∃ table, s.naming.table entity = .ok table := by
    intro hqualify
    obtain ⟨e, hentity⟩ := Option.isSome_iff_exists.mp (hown hqualify)
    exact ⟨e.table, Schema.table_eq_ok_iff.mpr ⟨e, hentity, rfl⟩⟩
  have hassociation : ∀ {paths : List (List String)}, paths ⊆ tree.associationPaths →
      ((∀ path ∈ paths, ∃ target, s.naming.reach entity path = .ok target) ↔
        ∀ path ∈ paths, s.IsAssociation entity path) := fun hpaths =>
    forall₂_congr fun path hpath =>
      (Schema.isAssociation_iff (ConditionTree.ne_nil_of_mem (hpaths hpath))).symm
  refine ⟨?_, fun err => ?_, fun d => flatten_eq_ofList⟩
  · rw [← failure?_eq_none, flatten, failure?_flattenInto hs.hasTables htable,
      List.findSome?_eq_none_iff]
    simp only [failure?_eq_none]
    exact hassociation (List.Subset.refl _)
  · rw [flatten_eq_error hs.hasTables htable]
    constructor
    · rintro ⟨before, front, name, after, hpaths, hbefore, source, hreach, htarget⟩
      exact ⟨before, front, name, after, hpaths, (hassociation (by simp [hpaths])).mp hbefore,
        (hs.target_eq_error hreach).mp htarget⟩
    · rintro ⟨before, front, name, after, hpaths, hbefore, hmissing⟩
      have hfound := (hassociation (by simp [hpaths])).mpr hbefore
      obtain ⟨source, hreach⟩ := exists_reach_front hpaths hfound
      exact ⟨before, front, name, after, hpaths, hfound, source, hreach,
        (hs.target_eq_error hreach).mpr hmissing⟩

end Naming

theorem Sample.isClosed_schema : Sample.schema.IsClosed := by decide +kernel

/-- The approved comments on posts with a colour of their tags and with a writer, which are no
associations of either. -/
def colouredTalk : ConditionTree :=
  .literal "approved" (.bool true) <| .association "post"
    (.association "tags" (.association "colour" .nil .nil) <|
      .literal "is_published" (.bool true) <| .association "writer" .nil .nil) .nil

theorem colouredTalk_refused :
    Sample.schema.naming.flatten true "Comment" colouredTalk = .error (.unknown "Tag" "colour") ∧
    ∃ d, Sample.schema.naming.flatten true "Comment" publishedTalk = .ok d ∧
      d.keys = ["comments.approved", "posts.is_published", "users.org_id"] := by
  obtain ⟨_, hrefused, _⟩ := Naming.flatten_outcome true "Comment" colouredTalk
    Sample.isClosed_schema fun _ => rfl
  obtain ⟨hfound, _, hflat⟩ := Naming.flatten_outcome true "Comment" publishedTalk
    Sample.isClosed_schema fun _ => rfl
  have hpost : Sample.schema.IsAssociation "Comment" ["post"] :=
    ⟨[], "post", Sample.comment, rfl, rfl, rfl⟩
  have htags : Sample.schema.IsAssociation "Comment" ["post", "tags"] :=
    ⟨["post"], "tags", Sample.post, rfl, rfl, rfl⟩
  have hauthor : Sample.schema.IsAssociation "Comment" ["post", "author"] :=
    ⟨["post"], "author", Sample.post, rfl, rfl, rfl⟩
  have hcolour : ¬ Sample.schema.IsAssociation "Comment" ["post", "tags", "colour"] := by
    rw [Schema.isAssociation_iff (List.cons_ne_nil _ _)]
    rintro ⟨target, htarget⟩
    cases htarget
  refine ⟨(hrefused _).mpr ⟨[["post"], ["post", "tags"]], ["post", "tags"], "colour",
    [["post", "writer"]], rfl, ?_, hcolour, rfl⟩, ?_⟩
  · simp [hpost, htags]
  · have hall : ∀ path ∈ publishedTalk.associationPaths,
        Sample.schema.IsAssociation "Comment" path := by
      simp [publishedTalk, ConditionTree.associationPaths, hpost, hauthor]
    obtain ⟨d, hd⟩ := hfound.mpr hall
    obtain rfl := hflat d hd
    exact ⟨_, hd, rfl⟩

end RowPolicy
