import Mathlib.Data.List.Perm.Subperm
import RowPolicy.Proofs.Outcome
import RowPolicy.Proofs.Flattening

/-!
# The literal entries of a condition

Flattening inserts the literal entries of a condition one after the other, each under a
reference to its column that names the table of the last association above it. So an entry is
lost exactly if a later one has the same reference, as when two paths of associations lead to
one table.
-/

namespace RowPolicy

/-! ## Inserting in order -/

namespace Entries

variable {κ α : Type} [DecidableEq κ] {key other : κ}

theorem insert_insert (key : κ) (value value' : α) (entries : List (κ × α)) :
    insert key value' (insert key value entries) = insert key value' entries := by
  induction entries with
  | nil => simp [insert]
  | cons first rest ih =>
      by_cases hfirst : first.1 = key
      · simp [insert, hfirst]
      · simp [insert, hfirst, ih]

/-- A value is replaced in its place, before or after another key is inserted. -/
theorem insert_comm (hne : key ≠ other) (value value' : α) {entries : List (κ × α)}
    (hmem : key ∈ entries.map Prod.fst) :
    insert key value (insert other value' entries) =
      insert other value' (insert key value entries) := by
  induction entries with
  | nil => cases hmem
  | cons first rest ih =>
      by_cases hkey : first.1 = key
      · simp [insert, hkey, hne]
      · have hrest : key ∈ rest.map Prod.fst := by
          simpa [Ne.symm hkey] using hmem
        by_cases hother : first.1 = other
        · simp [insert, hother, Ne.symm hne]
        · simp [insert, hother, hkey, ih hrest]

theorem insert_of_not_mem (value : α) {entries : List (κ × α)}
    (hmem : key ∉ entries.map Prod.fst) :
    insert key value entries = entries ++ [(key, value)] := by
  induction entries with
  | nil => rfl
  | cons first rest ih =>
      rw [List.map_cons, List.mem_cons, not_or] at hmem
      simp [insert, Ne.symm hmem.1, ih hmem.2]

theorem mem_of_get? {value : α} {entries : List (κ × α)} (h : get? key entries = some value) :
    (key, value) ∈ entries := by
  induction entries with
  | nil => cases h
  | cons first rest ih =>
      unfold get? at h
      split at h
      next hfirst =>
        obtain rfl := Option.some.inj h
        exact hfirst ▸ List.mem_cons_self
      next => exact List.mem_cons_of_mem _ (ih h)

end Entries

namespace Dict

variable {κ α : Type} [DecidableEq κ] {d e : Dict κ α} {key : κ}

theorem insertAll_append (d : Dict κ α) (entries more : List (κ × α)) :
    d.insertAll (entries ++ more) = (d.insertAll entries).insertAll more :=
  List.foldl_append

/-- A known key can be given another value before or after other keys are inserted. -/
theorem insertAll_insert (value : α) {entries : List (κ × α)} (hmem : key ∈ d.keys)
    (hfresh : key ∉ entries.map Prod.fst) :
    (d.insertAll entries).insert key value = (d.insert key value).insertAll entries := by
  induction entries generalizing d with
  | nil => rfl
  | cons first rest ih =>
      rw [List.map_cons, List.mem_cons, not_or] at hfresh
      have hmem' : key ∈ (d.insert first.1 first.2).keys :=
        (extends_insert first.1 first.2).keys_subset hmem
      have hcomm : (d.insert first.1 first.2).insert key value =
          (d.insert key value).insert first.1 first.2 :=
        ext (Entries.insert_comm hfresh.1 value first.2 hmem)
      change ((d.insert first.1 first.2).insertAll rest).insert key value =
        ((d.insert key value).insert first.1 first.2).insertAll rest
      rw [ih hmem' hfresh.2, hcomm]

/-- Inserting a dictionary that has one more entry inserts that entry last. -/
theorem update_insert (d e : Dict κ α) (key : κ) (value : α) :
    d.update (e.insert key value) = (d.update e).insert key value := by
  obtain ⟨entries, hnodup⟩ := e
  change d.insertAll (Entries.insert key value entries) = (d.insertAll entries).insert key value
  induction entries generalizing d with
  | nil => rfl
  | cons first rest ih =>
      obtain ⟨hfirst, hrest⟩ := List.nodup_cons.mp hnodup
      by_cases hkey : first.1 = key
      · subst hkey
        have hmem : first.1 ∈ (d.insert first.1 first.2).keys :=
          (extends_insert first.1 first.2).key_mem _ rfl
        have hagain : (d.insert first.1 first.2).insert first.1 value = d.insert first.1 value :=
          ext (Entries.insert_insert first.1 first.2 value d.entries)
        calc d.insertAll (Entries.insert first.1 value (first :: rest))
            = (d.insert first.1 value).insertAll rest := by simp [Entries.insert, insertAll]
          _ = ((d.insert first.1 first.2).insertAll rest).insert first.1 value := by
              rw [insertAll_insert value hmem hfirst, hagain]
      · calc d.insertAll (Entries.insert key value (first :: rest))
            = (d.insert first.1 first.2).insertAll (Entries.insert key value rest) := by
              simp [Entries.insert, insertAll, hkey]
          _ = ((d.insert first.1 first.2).insertAll rest).insert key value := ih _ hrest

/-- Inserting a dictionary made of some entries inserts these entries. -/
theorem update_ofList (d : Dict κ α) (entries : List (κ × α)) :
    d.update (ofList entries) = d.insertAll entries := by
  induction entries using List.reverseRecOn with
  | nil => rfl
  | append_singleton front last ih =>
      have hofList : (ofList (front ++ [last]) : Dict κ α) = (ofList front).insert last.1 last.2 :=
        insertAll_append ∅ front [last]
      rw [hofList, update_insert, ih, insertAll_append]
      rfl

theorem entries_insertAll {entries : List (κ × α)}
    (hnodup : (d.keys ++ entries.map Prod.fst).Nodup) :
    (d.insertAll entries).entries = d.entries ++ entries := by
  induction entries generalizing d with
  | nil => exact (List.append_nil _).symm
  | cons first rest ih =>
      have hfresh : first.1 ∉ d.keys := fun hmem =>
        (List.nodup_append.mp hnodup).2.2 _ hmem _ List.mem_cons_self rfl
      have hinsert : (d.insert first.1 first.2).entries = d.entries ++ [first] :=
        Entries.insert_of_not_mem first.2 hfresh
      have hkeys : (d.insert first.1 first.2).keys = d.keys ++ [first.1] := by
        rw [keys_insert, if_neg hfresh]
      have hrest := ih (d := d.insert first.1 first.2) (by simpa [hkeys] using hnodup)
      change ((d.insert first.1 first.2).insertAll rest).entries = _
      rw [hrest, hinsert, List.append_assoc]
      rfl

/-- Entries with different keys are all kept, in their order. -/
theorem entries_ofList {entries : List (κ × α)} (hnodup : (entries.map Prod.fst).Nodup) :
    (ofList entries).entries = entries :=
  entries_insertAll (d := ∅) hnodup

theorem get?_of_mem {value : α} (h : (key, value) ∈ d.entries) : d.get? key = some value := by
  obtain ⟨entries, hnodup⟩ := d
  change Entries.get? key entries = some value
  induction entries with
  | nil => cases h
  | cons first rest ih =>
      obtain ⟨hfirst, hrest⟩ := List.nodup_cons.mp hnodup
      rcases List.mem_cons.mp h with rfl | hmem
      · simp [Entries.get?]
      · have hne : first.1 ≠ key := fun heq =>
          hfirst (heq ▸ List.mem_map_of_mem (f := Prod.fst) hmem)
        rw [Entries.get?, if_neg hne]
        exact ih hrest hmem

/-- There is an entry for each one inserted only if these have different keys. -/
theorem nodup_of_length_ofList {entries : List (κ × α)}
    (h : (ofList entries).entries.length = entries.length) : (entries.map Prod.fst).Nodup := by
  have hextends := extends_insertAll (d := (∅ : Dict κ α)) entries
  have hsubset : (ofList entries).keys ⊆ entries.map Prod.fst := by
    intro key hkey
    obtain ⟨entry, hentry, rfl⟩ := List.mem_map.mp hkey
    exact List.mem_map_of_mem (hextends.of_mem hentry)
  -- keys without repetitions, as many as there are entries, are all keys of the entries
  have hperm : (ofList entries).keys.Perm (entries.map Prod.fst) :=
    (List.subperm_of_subset (ofList entries).nodup_keys hsubset).perm_of_length_le
      (by simp [h])
  exact hperm.nodup_iff.mp (ofList entries).nodup_keys

end Dict

/-! ## Literal entries with their paths -/

/-- A literal entry of a condition, with the names of the associations above it. -/
structure Leaf where
  path : List String
  name : String
  value : Value

namespace ConditionTree

/-- The literal entries below the associations of a condition that itself stands below some
names. Those of one association come before those of the associations below it. -/
def leavesBelow (above : List String) : ConditionTree → List Leaf
  | nil => []
  | literal _ _ rest => rest.leavesBelow above
  | association name inner rest =>
      inner.literals.map (fun (key, value) => ⟨above ++ [name], key, value⟩)
        ++ inner.leavesBelow (above ++ [name]) ++ rest.leavesBelow above

/-- All literal entries of a condition. -/
def leaves : ConditionTree → List Leaf
  | nil => []
  | literal name value rest => ⟨[], name, value⟩ :: rest.leaves
  | association name inner rest =>
      inner.literals.map (fun (key, value) => ⟨[name], key, value⟩)
        ++ inner.leavesBelow [name] ++ rest.leaves

/-- The number of literal entries of a condition, at all depths. -/
def leafCount : ConditionTree → Nat
  | nil => 0
  | literal _ _ rest => rest.leafCount + 1
  | association _ inner rest => inner.leafCount + rest.leafCount

variable {tree : ConditionTree} {leaf : Leaf}

/-- A literal entry of a condition stands on its first level or below an association. -/
theorem mem_leaves : leaf ∈ tree.leaves ↔
    (∃ entry ∈ tree.literals, leaf = ⟨[], entry.1, entry.2⟩) ∨ leaf ∈ tree.leavesBelow [] := by
  induction tree with
  | nil => simp [leaves, literals, leavesBelow]
  | literal name value rest ih => simp [leaves, literals, leavesBelow, ih, or_assoc]
  | association name inner rest _ ih =>
      simp only [leaves, leavesBelow, literals, List.nil_append, List.mem_append, ih]
      exact or_left_comm

/-- Without associations all literal entries stand on the first level. -/
theorem path_eq_nil (h : tree.associations = .nil) (hleaf : leaf ∈ tree.leaves) :
    leaf.path = [] := by
  have hbelow : tree.leavesBelow [] = [] := by
    clear hleaf
    induction tree with
    | nil => rfl
    | literal name value rest ih => exact ih h
    | association name inner rest => cases h
  rcases mem_leaves.mp hleaf with ⟨entry, _, rfl⟩ | hmem
  · rfl
  · rw [hbelow] at hmem
    cases hmem

/-- Whether a condition compares with data only, at all depths. -/
def ComparesData (tree : ConditionTree) : Prop := ∀ leaf ∈ tree.leaves, leaf.value.isData = true

theorem comparesData_of_plainKeysAndData (h : tree.hasPlainKeysAndData = true) :
    tree.ComparesData := by
  have hliterals : ∀ tree : ConditionTree, tree.hasPlainKeysAndData = true →
      ∀ entry ∈ tree.literals, entry.2.isData = true := by
    intro tree h
    induction tree with
    | nil => simp [literals]
    | literal name value rest ih =>
        simp only [hasPlainKeysAndData, Bool.and_eq_true] at h
        exact List.forall_mem_cons.mpr ⟨h.1.2, ih h.2⟩
    | association name inner rest _ ih =>
        simp only [hasPlainKeysAndData, Bool.and_eq_true] at h
        exact ih h.2
  have hbelow : ∀ above, ∀ leaf ∈ tree.leavesBelow above, leaf.value.isData = true := by
    induction tree with
    | nil => simp [leavesBelow]
    | literal name value rest ih =>
        simp only [hasPlainKeysAndData, Bool.and_eq_true] at h
        exact ih h.2
    | association name inner rest ihInner ihRest =>
        simp only [hasPlainKeysAndData, Bool.and_eq_true] at h
        intro above leaf hleaf
        rw [leavesBelow, List.mem_append, List.mem_append] at hleaf
        rcases hleaf with (hliteral | hdeeper) | hrest
        · obtain ⟨entry, hentry, rfl⟩ := List.mem_map.mp hliteral
          exact hliterals inner h.1.2 entry hentry
        · exact ihInner h.1.2 _ leaf hdeeper
        · exact ihRest h.2 above leaf hrest
  intro leaf hleaf
  rcases mem_leaves.mp hleaf with ⟨entry, hentry, rfl⟩ | hmem
  · exact hliterals tree h entry hentry
  · exact hbelow [] leaf hmem

/-- Whether no literal entry of the first level names a table with its column. -/
def HasPlainKeys (tree : ConditionTree) : Prop := ∀ entry ∈ tree.literals, splitKey? entry.1 = none

theorem hasPlainKeys_of_plainKeysAndData (h : tree.hasPlainKeysAndData = true) :
    tree.HasPlainKeys := by
  induction tree with
  | nil => simp [HasPlainKeys, literals]
  | literal name value rest ih =>
      simp only [hasPlainKeysAndData, Bool.and_eq_true, Option.isNone_iff_eq_none] at h
      exact List.forall_mem_cons.mpr ⟨h.1.1.2, ih h.2⟩
  | association name inner rest _ ih =>
      simp only [hasPlainKeysAndData, Bool.and_eq_true] at h
      exact ih h.2

/-- The tables that the values of a condition mention, at all depths. -/
def mentioned (tree : ConditionTree) : List String :=
  tree.leaves.flatMap fun leaf => leaf.value.mentioned

theorem mentioned_subset (h : leaf ∈ tree.leaves) : leaf.value.mentioned ⊆ tree.mentioned :=
  fun _ ht => List.mem_flatMap.mpr ⟨leaf, h, ht⟩

theorem length_leavesBelow (tree : ConditionTree) (above : List String) :
    tree.literals.length + (tree.leavesBelow above).length = tree.leafCount := by
  induction tree generalizing above with
  | nil => rfl
  | literal name value rest ih =>
      simp only [literals, leavesBelow, leafCount, List.length_cons, ← ih above]
      omega
  | association name inner rest ihInner ihRest =>
      simp only [literals, leavesBelow, leafCount, List.length_append, List.length_map,
        ← ihInner (above ++ [name]), ← ihRest above]
      omega

theorem length_leaves (tree : ConditionTree) : tree.leaves.length = tree.leafCount := by
  induction tree with
  | nil => rfl
  | literal name value rest ih => simp [leaves, leafCount, ih]
  | association name inner rest _ ih =>
      simp only [leaves, leafCount, List.length_append, List.length_map, ih,
        length_leavesBelow inner [name]]

end ConditionTree

namespace Rule

variable {rule : Rule}

/-- Whether the condition of a rule, if it is a mapping, compares with data only. -/
def ComparesData (rule : Rule) : Prop :=
  ∀ tree, rule.condition = .mapping tree → tree.ComparesData

/-- Whether the condition of a rule, if it is a mapping, names attributes on its first level. -/
def HasPlainKeys (rule : Rule) : Prop :=
  ∀ tree, rule.condition = .mapping tree → tree.HasPlainKeys

/-- The tables that the values in the condition of a rule mention, if it is a mapping. -/
def mentioned (rule : Rule) : List String :=
  match rule.condition with
  | .mapping tree => tree.mentioned
  | .fragment _ | .scope _ => []

theorem HasPlainKeysAndData.comparesData (h : rule.HasPlainKeysAndData) : rule.ComparesData := by
  obtain ⟨tree, htree, hplain⟩ := h
  intro tree' htree'
  obtain rfl := Condition.mapping.inj (htree.symm.trans htree')
  exact ConditionTree.comparesData_of_plainKeysAndData hplain

theorem HasPlainKeysAndData.hasPlainKeys (h : rule.HasPlainKeysAndData) : rule.HasPlainKeys := by
  obtain ⟨tree, htree, hplain⟩ := h
  intro tree' htree'
  obtain rfl := Condition.mapping.inj (htree.symm.trans htree')
  exact ConditionTree.hasPlainKeys_of_plainKeysAndData hplain

end Rule

/-! ## The reference of a literal entry -/

namespace Naming

variable {n : Naming} {qualify : Bool} {entity reached : String} {above : List String}
  {tree : ConditionTree} {acc d : Dict String Value}

/-- The entity to which a path of associations leads. -/
def reach (n : Naming) (entity : String) (path : List String) : Except SchemaError String :=
  path.foldlM n.target entity

/-- The reference to the column of a literal entry: under the table to which the last
association above it leads or, if there is none, that of an own attribute. -/
def leafKey (n : Naming) (qualify : Bool) (entity : String) (leaf : Leaf) :
    Except SchemaError String :=
  match leaf.path.getLast? with
  | none => n.ownKey qualify entity leaf.name
  | some last => do
      let source ← n.reach entity leaf.path.dropLast
      return qualifiedKey (← n.targetTable source last) leaf.name

/-- Whether an entry is the one that stands for a literal entry. -/
def IsEntryOf (n : Naming) (qualify : Bool) (entity : String) (leaf : Leaf)
    (entry : String × Value) : Prop :=
  n.leafKey qualify entity leaf = .ok entry.1 ∧ entry.2 = leaf.value

theorem reach_concat {name target : String} (hreach : n.reach entity above = .ok reached)
    (htarget : n.target reached name = .ok target) :
    n.reach entity (above ++ [name]) = .ok target := by
  unfold reach at hreach ⊢
  rw [List.foldlM_append, hreach]
  exact Outcome.bind_eq_ok.mpr ⟨reached, rfl, Outcome.bind_eq_ok.mpr ⟨target, htarget, rfl⟩⟩

theorem leafKey_concat {name table key : String} {value : Value}
    (hreach : n.reach entity above = .ok reached)
    (htable : n.targetTable reached name = .ok table) :
    n.leafKey qualify entity ⟨above ++ [name], key, value⟩ = .ok (qualifiedKey table key) := by
  simp [leafKey, hreach, htable, bind, Except.bind, pure, Except.pure]

/-- What an association contributes is inserted entry by entry: its own literal entries
first, then those below it. -/
theorem enter_inserts {name : String} {inner : ConditionTree}
    (hreach : n.reach entity above = .ok reached)
    (h : n.enter reached name inner.literals (fun target => n.nested inner target ∅) acc = .ok d)
    (hinner : ∀ {above : List String} {reached : String} {acc d : Dict String Value},
      n.reach entity above = .ok reached → n.nested inner reached acc = .ok d →
        ∃ entries, List.Forall₂ (n.IsEntryOf qualify entity) (inner.leavesBelow above) entries ∧
          d = acc.insertAll entries) :
    ∃ entries, List.Forall₂ (n.IsEntryOf qualify entity)
        (inner.literals.map (fun (key, value) => ⟨above ++ [name], key, value⟩)
          ++ inner.leavesBelow (above ++ [name])) entries ∧
      d = acc.insertAll entries := by
  unfold enter at h
  simp only [Outcome.bind_eq_ok, Outcome.pure_eq_ok] at h
  obtain ⟨target, htarget, table, htable, found, hfound, rfl⟩ := h
  -- updating with a dictionary that was built from entries inserts these entries again
  obtain ⟨below, hbelow, rfl⟩ := hinner (reach_concat hreach htarget) hfound
  refine ⟨inner.literals.map (fun (key, value) => (qualifiedKey table key, value)) ++ below,
    List.rel_append ?_ hbelow, ?_⟩
  · rw [List.forall₂_map_left_iff, List.forall₂_map_right_iff, List.forall₂_same]
    exact fun entry _ => ⟨leafKey_concat hreach htable, rfl⟩
  · rw [Dict.insertAll_append]
    exact Dict.update_ofList _ below

theorem nested_inserts (hreach : n.reach entity above = .ok reached)
    (h : n.nested tree reached acc = .ok d) :
    ∃ entries, List.Forall₂ (n.IsEntryOf qualify entity) (tree.leavesBelow above) entries ∧
      d = acc.insertAll entries := by
  induction tree generalizing above reached acc d with
  | nil => exact ⟨[], .nil, (Except.ok.inj h).symm⟩
  | literal name value rest ih => exact ih hreach h
  | association name inner rest ihInner ihRest =>
      rw [nested, Outcome.bind_eq_ok] at h
      obtain ⟨mid, hmid, h⟩ := h
      obtain ⟨entries, hentries, rfl⟩ := enter_inserts hreach hmid ihInner
      obtain ⟨later, hlater, rfl⟩ := ihRest hreach h
      exact ⟨entries ++ later, List.rel_append hentries hlater,
        (Dict.insertAll_append acc entries later).symm⟩

/-- Flattening a condition inserts its literal entries, each under its reference. -/
theorem flattenInto_inserts (h : n.flattenInto qualify entity tree acc = .ok d) :
    ∃ entries, List.Forall₂ (n.IsEntryOf qualify entity) tree.leaves entries ∧
      d = acc.insertAll entries := by
  induction tree generalizing acc d with
  | nil => exact ⟨[], .nil, (Except.ok.inj h).symm⟩
  | literal name value rest ih =>
      rw [flattenInto, Outcome.bind_eq_ok] at h
      obtain ⟨key, hkey, h⟩ := h
      obtain ⟨entries, hentries, rfl⟩ := ih h
      exact ⟨(key, value) :: entries, .cons ⟨hkey, rfl⟩ hentries, rfl⟩
  | association name inner rest _ ih =>
      rw [flattenInto, Outcome.bind_eq_ok] at h
      obtain ⟨mid, hmid, h⟩ := h
      have hroot : n.reach entity [] = .ok entity := rfl
      obtain ⟨entries, hentries, rfl⟩ :=
        enter_inserts hroot hmid fun hreach => nested_inserts hreach
      obtain ⟨later, hlater, rfl⟩ := ih h
      exact ⟨entries ++ later, List.rel_append hentries hlater,
        (Dict.insertAll_append acc entries later).symm⟩

/-- Which entries stand for some literal entries: their references and their values. -/
theorem forall₂_isEntryOf {leaves : List Leaf} {entries : List (String × Value)}
    (h : List.Forall₂ (n.IsEntryOf qualify entity) leaves entries) :
    leaves.mapM (n.leafKey qualify entity) = .ok (entries.map Prod.fst) ∧
      entries.map Prod.snd = leaves.map Leaf.value := by
  refine ⟨Outcome.mapM_eq_ok.mpr ?_, ?_⟩
  · rw [List.forall₂_map_right_iff]
    exact h.imp fun _ _ hentry => hentry.1
  · induction h with
    | nil => rfl
    | cons hentry _ ih => rw [List.map_cons, List.map_cons, hentry.2, ih]

/-- Every entry of a flattened condition stands for one of its literal entries. -/
theorem exists_leaf (h : n.flatten qualify entity tree = .ok d) {entry : String × Value}
    (hentry : entry ∈ d.entries) :
    ∃ leaf ∈ tree.leaves, n.IsEntryOf qualify entity leaf entry := by
  obtain ⟨entries, hentries, rfl⟩ := flattenInto_inserts h
  have hmem : entry ∈ entries := (Dict.extends_insertAll entries).of_mem hentry
  exact Outcome.exists_of_mem_right hentries hmem

theorem isData_of_flatten (hdata : tree.ComparesData) (h : n.flatten qualify entity tree = .ok d)
    {entry : String × Value} (hentry : entry ∈ d.entries) : entry.2.isData = true := by
  obtain ⟨leaf, hleaf, _, hvalue⟩ := exists_leaf h hentry
  rw [hvalue]
  exact hdata leaf hleaf

/-- A flattened condition has the literal entries inserted one after the other. None is lost,
each being found under its reference, exactly if no two have the same reference. -/
theorem flatten_keeps_iff (h : n.flatten qualify entity tree = .ok d) :
    ∃ keys, tree.leaves.mapM (n.leafKey qualify entity) = .ok keys ∧
      d = .ofList (keys.zip (tree.leaves.map Leaf.value)) ∧
      ((d.entries.length = tree.leafCount ∧
          ∀ leaf ∈ tree.leaves, ∃ key, n.leafKey qualify entity leaf = .ok key ∧
            d.get? key = some leaf.value) ↔ keys.Nodup) := by
  obtain ⟨entries, hentries, rfl⟩ := flattenInto_inserts h
  obtain ⟨hkeys, hvalues⟩ := forall₂_isEntryOf hentries
  have hzip : (entries.map Prod.fst).zip (entries.map Prod.snd) = entries := by
    rw [← List.unzip_fst, ← List.unzip_snd, List.zip_unzip]
  refine ⟨entries.map Prod.fst, hkeys, by rw [← hvalues, hzip]; rfl, ⟨fun hkept => ?_, ?_⟩⟩
  · refine Dict.nodup_of_length_ofList ?_
    rw [← hentries.length_eq, ConditionTree.length_leaves]
    exact hkept.1
  · intro hnodup
    have hall : (Dict.ofList entries).entries = entries := Dict.entries_ofList hnodup
    refine ⟨?_, fun leaf hleaf => ?_⟩
    · rw [← ConditionTree.length_leaves, hentries.length_eq]
      exact congrArg List.length hall
    · obtain ⟨entry, hentry, hkey, hvalue⟩ := Outcome.exists_of_mem_left hentries hleaf
      exact ⟨entry.1, hkey, Dict.get?_of_mem (by rw [← hvalue]; exact hall.symm ▸ hentry)⟩

end Naming

/-- The approved comments on published posts of one organization. -/
def publishedTalk : ConditionTree :=
  .literal "approved" (.bool true) <| .association "post"
    (.literal "is_published" (.bool true) <|
      .association "author" (.literal "org_id" (.int 1) .nil) .nil) .nil

theorem publishedTalk_kept :
    ∃ d, Sample.schema.naming.flatten false "Comment" publishedTalk = .ok d ∧
    d.entries.length = publishedTalk.leafCount ∧
      ∀ leaf ∈ publishedTalk.leaves, ∃ key,
        Sample.schema.naming.leafKey false "Comment" leaf = .ok key ∧
          d.get? key = some leaf.value := by
  have hflat : Sample.schema.naming.flatten false "Comment" publishedTalk = .ok _ := rfl
  obtain ⟨keys, hkeys, _, hkept⟩ := Naming.flatten_keeps_iff hflat
  obtain rfl : ["approved", "posts.is_published", "users.org_id"] = keys := Except.ok.inj hkeys
  exact ⟨_, hflat, hkept.mpr (by decide)⟩

/-- The posts by an author of one name in an organization that has a user of another name. -/
def sharedTable : ConditionTree :=
  .association "author" (.literal "name" (.str "A") <| .association "organization"
    (.association "users" (.literal "name" (.str "B") .nil) .nil) .nil) .nil

theorem sharedTable_lost : ∃ d, Sample.schema.naming.flatten false "Post" sharedTable = .ok d ∧
    sharedTable.leafCount = 2 ∧ d.entries = [("users.name", .str "B")] ∧
      ¬ ∀ leaf ∈ sharedTable.leaves, ∃ key,
        Sample.schema.naming.leafKey false "Post" leaf = .ok key ∧
          d.get? key = some leaf.value := by
  refine ⟨_, rfl, rfl, rfl, fun h => ?_⟩
  obtain ⟨key, hkey, hvalue⟩ := h ⟨["author"], "name", .str "A"⟩ List.mem_cons_self
  obtain rfl : "users.name" = key := Except.ok.inj hkey
  have hname : "B" = "A" := Scalar.str.inj (Value.scalar.inj (Option.some.inj hvalue))
  exact absurd hname (by decide)

end RowPolicy
