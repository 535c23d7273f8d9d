import RowPolicy.Proofs.WellFormed

/-!
# What flattening keeps of a condition

Every literal entry of a condition, however deep, becomes an entry of the filter under a
reference to its column. Entries with the same reference replace each other, but if the
joins of the condition have tables of their own, no two entries have the same reference
and the filter has exactly the literal entries.
-/

namespace RowPolicy

open Sql (Database Join Row)

/-! ## Adding entries to a dictionary -/

namespace Dict

variable {κ α : Type} {acc mid d e : Dict κ α} {p q : κ × α → Prop}

/-- Whether a dictionary results from another one by adding the entries for which `p` holds,
where entries with the same key replace each other. -/
structure Extends (acc d : Dict κ α) (p : κ × α → Prop) : Prop where
  entry_cases : ∀ entry ∈ d.entries, entry ∈ acc.entries ∨ p entry
  keys_subset : acc.keys ⊆ d.keys
  key_mem : ∀ entry, p entry → entry.1 ∈ d.keys

theorem Extends.refl : acc.Extends acc fun _ => False :=
  ⟨fun _ => Or.inl, List.Subset.refl _, fun _ => False.elim⟩

theorem Extends.trans (h : acc.Extends mid p) (h' : mid.Extends d q) :
    acc.Extends d fun entry => p entry ∨ q entry where
  entry_cases entry hentry := by
    rcases h'.entry_cases entry hentry with hmid | hq
    · exact (h.entry_cases entry hmid).imp_right Or.inl
    · exact Or.inr (Or.inr hq)
  keys_subset := List.Subset.trans h.keys_subset h'.keys_subset
  key_mem entry hentry := hentry.elim (fun hp => h'.keys_subset (h.key_mem entry hp))
    (h'.key_mem entry)

theorem Extends.congr (h : acc.Extends d p) (hpq : ∀ entry, p entry ↔ q entry) :
    acc.Extends d q := by
  obtain rfl : p = q := funext fun entry => propext (hpq entry)
  exact h

/-- Whatever was added to nothing is one of the entries added. -/
theorem Extends.of_mem (h : (∅ : Dict κ α).Extends d p) {entry : κ × α}
    (hentry : entry ∈ d.entries) : p entry :=
  (h.entry_cases entry hentry).resolve_left (by simp)

/-- If no two of the entries added have the same key, none is lost. -/
theorem Extends.mem_iff (h : (∅ : Dict κ α).Extends d p)
    (hkeys : ∀ a b, p a → p b → a.1 = b.1 → a = b) {entry : κ × α} :
    entry ∈ d.entries ↔ p entry := by
  -- an entry added last under a key has the key of the one that it replaces, so it is the same
  refine ⟨h.of_mem, fun hp => ?_⟩
  obtain ⟨entry', hentry', hkey⟩ := List.mem_map.mp (h.key_mem entry hp)
  exact hkeys entry' entry (h.of_mem hentry') hp hkey ▸ hentry'

variable [DecidableEq κ]

theorem extends_insert (key : κ) (value : α) :
    d.Extends (d.insert key value) fun entry => entry = (key, value) where
  entry_cases := by
    unfold insert
    dsimp only
    induction d.entries with
    | nil => simp [Entries.insert]
    | cons first rest ih =>
        intro entry hentry
        unfold Entries.insert at hentry
        split at hentry
        next hkey =>
          rcases List.mem_cons.mp hentry with rfl | hrest
          · exact Or.inr (by rw [hkey])
          · exact Or.inl (List.mem_cons_of_mem _ hrest)
        next =>
          rcases List.mem_cons.mp hentry with rfl | hrest
          · exact Or.inl List.mem_cons_self
          · exact (ih entry hrest).imp_left (List.mem_cons_of_mem _)
  keys_subset := by
    rw [keys_insert]
    split
    · exact List.Subset.refl _
    · exact List.subset_append_left _ _
  key_mem := by
    rintro _ rfl
    rw [keys_insert]
    split
    next hkey => exact hkey
    next => exact List.mem_append_right _ (List.mem_singleton.mpr rfl)

theorem extends_insertAll (entries : List (κ × α)) :
    d.Extends (d.insertAll entries) (· ∈ entries) := by
  unfold insertAll
  induction entries generalizing d with
  | nil => exact Extends.refl.congr (by simp)
  | cons first rest ih => exact ((extends_insert _ _).trans ih).congr (by simp)

theorem Extends.update (h : (∅ : Dict κ α).Extends e p) : d.Extends (d.update e) p := by
  have hall := extends_insertAll (d := d) e.entries
  refine ⟨fun entry hentry => ?_, hall.keys_subset, fun entry hp => ?_⟩
  · exact (hall.entry_cases entry hentry).imp_right h.of_mem
  · obtain ⟨entry', hentry', hkey⟩ := List.mem_map.mp (h.key_mem entry hp)
    exact hkey ▸ hall.key_mem entry' hentry'

end Dict

/-! ## The literal entries of a condition -/

namespace ConditionTree

variable {s : Schema} {e target target' : Entity} {entry : String × Value} {path : List String}

/-- Whether a path leads through a condition to a literal entry on an entity. -/
def HasLiteral (s : Schema) (target : Entity) (entry : String × Value) :
    ConditionTree → Entity → List String → Prop
  | nil, _, _ => False
  | literal name value rest, e, path =>
      (path = [] ∧ target = e ∧ entry = (name, value)) ∨ rest.HasLiteral s target entry e path
  | association name inner rest, e, path =>
      (∃ r below, s.Resolves e name r below ∧
        ∃ deeper, path = name :: deeper ∧ inner.HasLiteral s target entry below deeper) ∨
      rest.HasLiteral s target entry e path

theorem hasLiteral_association {name : String} {inner rest : ConditionTree} {r : Relationship}
    {below : Entity} (hresolves : s.Resolves e name r below) :
    (association name inner rest).HasLiteral s target entry e path ↔
      (∃ deeper, path = name :: deeper ∧ inner.HasLiteral s target entry below deeper) ∨
        rest.HasLiteral s target entry e path := by
  refine or_congr_left ⟨?_, fun h => ⟨r, below, hresolves, h⟩⟩
  rintro ⟨r', below', hresolves', h⟩
  obtain ⟨rfl, rfl⟩ := hresolves.unique hresolves'
  exact h

theorem hasLiteral_nil {tree : ConditionTree} :
    tree.HasLiteral s target entry e [] ↔ target = e ∧ entry ∈ tree.literals := by
  induction tree with
  | nil => simp [HasLiteral, literals]
  | literal name value rest ih =>
      simp only [HasLiteral, true_and, ih, literals, List.mem_cons, ← and_or_left]
  | association name inner rest _ ih => simp [HasLiteral, literals, ih]

/-- The first name of the path, or else that of the entry, is a name of the condition. -/
theorem HasLiteral.mem_names {tree : ConditionTree} (h : tree.HasLiteral s target entry e path) :
    path.headD entry.1 ∈ tree.names := by
  induction tree with
  | nil => exact h.elim
  | literal name value rest ih =>
      rcases h with ⟨rfl, _, rfl⟩ | hrest
      · exact List.mem_cons_self
      · exact List.mem_cons_of_mem _ (ih hrest)
  | association name inner rest _ ih =>
      rcases h with ⟨r, below, _, deeper, rfl, _⟩ | hrest
      · exact List.mem_cons_self
      · exact List.mem_cons_of_mem _ (ih hrest)

/-- A path that leads to an entry on another entity leads to a join of its table. -/
theorem HasLiteral.exists_leads {tree : ConditionTree}
    (h : tree.HasLiteral s target entry e path) : (path = [] ∧ target = e) ∨
      ∃ source r, tree.associations.Leads s (.related source r target) e path := by
  induction tree generalizing e path with
  | nil => exact h.elim
  | literal name value rest ih =>
      rcases h with ⟨rfl, rfl, _⟩ | hrest
      · exact Or.inl ⟨rfl, rfl⟩
      · exact ih hrest
  | association name inner rest ihInner ihRest =>
      rcases h with ⟨r, below, hresolves, deeper, rfl, hbelow⟩ | hrest
      · rcases ihInner hbelow with ⟨rfl, rfl⟩ | ⟨source, r', hleads⟩
        · exact Or.inr ⟨e, r, JoinTree.leads_here hresolves⟩
        · exact Or.inr ⟨source, r', hleads.below hresolves⟩
      · rcases ihRest hrest with hroot | ⟨source, r', hleads⟩
        · exact Or.inl hroot
        · exact Or.inr ⟨source, r', Or.inr hleads⟩

theorem HasLiteral.lists {tree : ConditionTree} (h : tree.HasLiteral s target entry e path)
    (he : s.Lists e) : s.Lists target := by
  rcases h.exists_leads with ⟨_, rfl⟩ | ⟨source, r, hleads⟩
  · exact he
  · obtain ⟨_, _, _, _, heq, _, hresolves⟩ := hleads.hasJoin he
    obtain ⟨rfl, rfl, rfl⟩ := Join.related.inj heq
    exact hresolves.lists

/-- Literal entries with plain keys and data name attributes and compare them with data. -/
theorem HasLiteral.plain_and_data {tree : ConditionTree} (hwf : tree.hasPlainKeysAndData = true)
    (h : tree.HasLiteral s target entry e path) :
    splitKey? entry.1 = none ∧ entry.2.isData = true := by
  induction tree generalizing e path with
  | nil => exact h.elim
  | literal name value rest ih =>
      simp only [hasPlainKeysAndData, Bool.and_eq_true, Option.isNone_iff_eq_none] at hwf
      rcases h with ⟨_, _, rfl⟩ | hrest
      · exact ⟨hwf.1.1.2, hwf.1.2⟩
      · exact ih hwf.2 hrest
  | association name inner rest ihInner ihRest =>
      simp only [hasPlainKeysAndData, Bool.and_eq_true] at hwf
      rcases h with ⟨_, _, _, _, _, hbelow⟩ | hrest
      · exact ihInner hwf.1.2 hbelow
      · exact ihRest hwf.2 hrest

/-- On one path a condition of this kind has one value for a name. -/
theorem HasLiteral.value_unique {tree : ConditionTree} {name : String} {value value' : Value}
    (hwf : tree.hasPlainKeysAndData = true) (h : tree.HasLiteral s target (name, value) e path)
    (h' : tree.HasLiteral s target' (name, value') e path) : value = value' := by
  induction tree generalizing e path with
  | nil => exact h.elim
  | literal n v rest ih =>
      simp only [hasPlainKeysAndData, Bool.and_eq_true, Bool.not_eq_true', List.contains_eq_mem,
        decide_eq_false_iff_not] at hwf
      rcases h with ⟨rfl, _, heq⟩ | hrest <;> rcases h' with ⟨hpath, _, heq'⟩ | hrest'
      · exact (Prod.mk.inj heq).2.trans (Prod.mk.inj heq').2.symm
      · exact (hwf.1.1.1 ((Prod.mk.inj heq).1 ▸ hrest'.mem_names)).elim
      · subst hpath
        exact (hwf.1.1.1 ((Prod.mk.inj heq').1 ▸ hrest.mem_names)).elim
      · exact ih hwf.2 hrest hrest'
  | association n inner rest ihInner ihRest =>
      simp only [hasPlainKeysAndData, Bool.and_eq_true, Bool.not_eq_true', List.contains_eq_mem,
        decide_eq_false_iff_not] at hwf
      rcases h with ⟨r, below, hresolves, deeper, rfl, hbelow⟩ | hrest <;>
        rcases h' with ⟨r', below', hresolves', deeper', hpath, hbelow'⟩ | hrest'
      · obtain ⟨_, rfl⟩ := hresolves.unique hresolves'
        obtain rfl := (List.cons.inj hpath).2
        exact ihInner hwf.1.2 hbelow hbelow'
      · exact (hwf.1.1 hrest'.mem_names).elim
      · subst hpath
        exact (hwf.1.1 hrest.mem_names).elim
      · exact ihRest hwf.2 hrest hrest'

end ConditionTree

/-! ## Flattening -/

namespace ConditionTree

variable {s : Schema} {e : Entity} {entry : String × Value}

/-- Whether an entry stands for a literal entry below an association of a condition. -/
def Contributes (s : Schema) (tree : ConditionTree) (e : Entity) (entry : String × Value) :
    Prop :=
  ∃ path target name, path ≠ [] ∧ tree.HasLiteral s target (name, entry.2) e path ∧
    entry.1 = qualifiedKey target.table name

theorem contributes_literal {name : String} {value : Value} {rest : ConditionTree} :
    (literal name value rest).Contributes s e entry ↔ rest.Contributes s e entry := by
  constructor
  · rintro ⟨path, target, n, hpath, ⟨hnil, _⟩ | hrest, hkey⟩
    · exact (hpath hnil).elim
    · exact ⟨path, target, n, hpath, hrest, hkey⟩
  · rintro ⟨path, target, n, hpath, hrest, hkey⟩
    exact ⟨path, target, n, hpath, Or.inr hrest, hkey⟩

theorem contributes_association {name : String} {inner rest : ConditionTree}
    {r : Relationship} {below : Entity} (hresolves : s.Resolves e name r below) :
    (association name inner rest).Contributes s e entry ↔
      ((∃ n, (n, entry.2) ∈ inner.literals ∧ entry.1 = qualifiedKey below.table n) ∨
        inner.Contributes s below entry) ∨ rest.Contributes s e entry := by
  constructor
  · rintro ⟨path, target, n, hpath, hliteral, hkey⟩
    rcases (hasLiteral_association hresolves).mp hliteral with ⟨deeper, rfl, hbelow⟩ | hrest
    · cases deeper with
      | nil =>
          obtain ⟨rfl, hliteral⟩ := hasLiteral_nil.mp hbelow
          exact Or.inl (Or.inl ⟨n, hliteral, hkey⟩)
      | cons first further =>
          exact Or.inl (Or.inr ⟨_, target, n, List.cons_ne_nil _ _, hbelow, hkey⟩)
    · exact Or.inr ⟨path, target, n, hpath, hrest, hkey⟩
  · rintro ((⟨n, hliteral, hkey⟩ | ⟨path, target, n, _, hbelow, hkey⟩) |
      ⟨path, target, n, hpath, hrest, hkey⟩)
    · exact ⟨[name], below, n, List.cons_ne_nil _ _, (hasLiteral_association hresolves).mpr
        (Or.inl ⟨[], rfl, hasLiteral_nil.mpr ⟨rfl, hliteral⟩⟩), hkey⟩
    · exact ⟨name :: path, target, n, List.cons_ne_nil _ _,
        (hasLiteral_association hresolves).mpr (Or.inl ⟨path, rfl, hbelow⟩), hkey⟩
    · exact ⟨path, target, n, hpath, Or.inr hrest, hkey⟩

end ConditionTree

namespace Naming

variable {s : Schema} {entity : String} {e : Entity} {tree : ConditionTree}
  {acc d : Dict String Value}

theorem enter_eq_ok {name : String} {literals : List (String × Value)}
    {below : String → Except SchemaError (Dict String Value)}
    (hentity : s.entity? entity = some e)
    (h : s.naming.enter entity name literals below acc = .ok d) :
    ∃ r target inner, s.Resolves e name r target ∧ below r.target = .ok inner ∧
      d = (acc.insertAll (literals.map fun (key, value) =>
        (qualifiedKey target.table key, value))).update inner := by
  unfold enter Schema.naming Schema.targetTable Schema.target Schema.table Schema.relationship
    Schema.entity at h
  dsimp only at h
  rw [hentity] at h
  cases hr : e.relationship? name with
  | none => simp [bind, Except.bind, hr, throw, throwThe, MonadExceptOf.throw] at h
  | some r =>
      cases htarget : s.entity? r.target with
      | none => simp [bind, Except.bind, hr, htarget, pure, Except.pure] at h
      | some target =>
          simp only [bind, Except.bind, hr, htarget, pure, Except.pure] at h
          cases hbelow : below r.target with
          | error err => simp [hbelow] at h
          | ok inner =>
              simp only [hbelow, Except.ok.injEq] at h
              exact ⟨r, target, inner, ⟨hr, htarget⟩, hbelow, h.symm⟩

/-- What an association contributes, given what `below` does for the entity reached. -/
theorem enter_extends {name : String} {inner : ConditionTree}
    (hentity : s.entity? entity = some e)
    (h : s.naming.enter entity name inner.literals (fun target => s.naming.nested inner target ∅)
      acc = .ok d)
    (hinner : ∀ {entity : String} {e : Entity} {acc d : Dict String Value},
      s.entity? entity = some e → s.naming.nested inner entity acc = .ok d →
        inner.associations.IsResolved s e ∧ acc.Extends d (inner.Contributes s e)) :
    ∃ r target, s.Resolves e name r target ∧ inner.associations.IsResolved s target ∧
      acc.Extends d fun entry =>
        (∃ n, (n, entry.2) ∈ inner.literals ∧ entry.1 = qualifiedKey target.table n) ∨
          inner.Contributes s target entry := by
  obtain ⟨r, target, found, hresolves, hfound, rfl⟩ := enter_eq_ok hentity h
  obtain ⟨hresolved, hfound⟩ := hinner hresolves.2 hfound
  refine ⟨r, target, hresolves, hresolved,
    ((Dict.extends_insertAll _).trans hfound.update).congr fun entry => or_congr_left ?_⟩
  constructor
  · intro hentry
    obtain ⟨⟨n, value⟩, hliteral, rfl⟩ := List.mem_map.mp hentry
    exact ⟨n, hliteral, rfl⟩
  · rintro ⟨n, hliteral, hkey⟩
    exact List.mem_map.mpr ⟨(n, entry.2), hliteral, Prod.ext hkey.symm rfl⟩

theorem nested_extends (hentity : s.entity? entity = some e)
    (h : s.naming.nested tree entity acc = .ok d) :
    tree.associations.IsResolved s e ∧ acc.Extends d (tree.Contributes s e) := by
  induction tree generalizing entity e acc d with
  | nil =>
      obtain rfl := Except.ok.inj h
      refine ⟨trivial, Dict.Extends.refl.congr fun entry => iff_of_false id ?_⟩
      rintro ⟨_, _, _, _, hnil, _⟩
      exact hnil
  | literal name value rest ih =>
      obtain ⟨hresolved, hextends⟩ := ih hentity h
      exact ⟨hresolved, hextends.congr fun _ => ConditionTree.contributes_literal.symm⟩
  | association name inner rest ihInner ihRest =>
      rw [nested, Outcome.bind_eq_ok] at h
      obtain ⟨mid, hmid, h⟩ := h
      obtain ⟨r, target, hresolves, hbelow, hextends⟩ := enter_extends hentity hmid ihInner
      obtain ⟨hresolved, hlater⟩ := ihRest hentity h
      exact ⟨⟨⟨r, target, hresolves, hbelow⟩, hresolved⟩, (hextends.trans hlater).congr
        fun _ => (ConditionTree.contributes_association hresolves).symm⟩

/-- Flattening a condition adds an entry for each of its literal entries. -/
theorem flattenInto_extends (hentity : s.entity? entity = some e)
    (h : s.naming.flattenInto false entity tree acc = .ok d) :
    tree.associations.IsResolved s e ∧
      acc.Extends d fun entry => entry ∈ tree.literals ∨ tree.Contributes s e entry := by
  induction tree generalizing acc d with
  | nil =>
      obtain rfl := Except.ok.inj h
      refine ⟨trivial, Dict.Extends.refl.congr fun entry => iff_of_false id ?_⟩
      rintro (hnil | ⟨_, _, _, _, hnil, _⟩)
      · cases hnil
      · exact hnil
  | literal name value rest ih =>
      obtain ⟨hresolved, hextends⟩ := ih h
      refine ⟨hresolved, ((Dict.extends_insert name value).trans hextends).congr fun entry => ?_⟩
      rw [ConditionTree.contributes_literal, ConditionTree.literals, List.mem_cons, or_assoc]
  | association name inner rest _ ihRest =>
      rw [flattenInto, Outcome.bind_eq_ok] at h
      obtain ⟨mid, hmid, h⟩ := h
      obtain ⟨r, target, hresolves, hbelow, hextends⟩ :=
        enter_extends hentity hmid nested_extends
      obtain ⟨hresolved, hlater⟩ := ihRest h
      refine ⟨⟨⟨r, target, hresolves, hbelow⟩, hresolved⟩, (hextends.trans hlater).congr
        fun entry => ?_⟩
      rw [ConditionTree.contributes_association hresolves, ConditionTree.literals]
      exact or_left_comm

/-- Flattening loses no entry of a condition with plain keys whose joins have tables of their
own. -/
theorem mem_flatten (hs : s.WellFormed) (hentity : s.entity? entity = some e)
    (htree : tree.hasPlainKeysAndData = true) (hown : tree.associations.HasOwnTables s e)
    (h : s.naming.flatten false entity tree = .ok d) {entry : String × Value} :
    entry ∈ d.entries ↔ entry ∈ tree.literals ∨ tree.Contributes s e entry := by
  have hroot : ∀ entry ∈ tree.literals, tree.HasLiteral s e entry e [] :=
    fun entry hentry => ConditionTree.hasLiteral_nil.mpr ⟨rfl, hentry⟩
  have hplain : ∀ entry ∈ tree.literals, splitKey? entry.1 = none :=
    fun entry hentry => ((hroot entry hentry).plain_and_data htree).1
  have hsplit : ∀ {path target name value}, tree.HasLiteral s target (name, value) e path →
      splitKey? (qualifiedKey target.table name) = some (target.table, name) :=
    fun hliteral => Schema.splitKey?_qualifiedKey
      (hs.table_plain _ (hliteral.lists (Schema.lists_of_entity? hentity)).mem)
  refine (flattenInto_extends hentity h).2.mem_iff fun a b ha hb hkey => Prod.ext hkey ?_
  obtain ⟨key, value⟩ := a
  obtain ⟨key', value'⟩ := b
  dsimp only at hkey
  subst hkey
  rcases ha with ha | ⟨path, target, name, hpath, hliteral, rfl⟩ <;>
    rcases hb with hb | ⟨path', target', name', hpath', hliteral', hkey⟩
  · exact (hroot _ ha).value_unique htree (hroot _ hb)
  · have hnone := hplain _ ha
    rw [hkey, hsplit hliteral'] at hnone
    cases hnone
  · have hnone := hplain _ hb
    rw [hsplit hliteral] at hnone
    cases hnone
  · -- the same reference means the same table, so the same join, path and entry
    have hsame := (hsplit hliteral).symm.trans (hkey ▸ hsplit hliteral')
    obtain ⟨htable, rfl⟩ := Prod.mk.inj (Option.some.inj hsame)
    obtain ⟨source, r, hleads⟩ := hliteral.exists_leads.resolve_left fun hroot => hpath hroot.1
    obtain ⟨source', r', hleads'⟩ :=
      hliteral'.exists_leads.resolve_left fun hroot => hpath' hroot.1
    have hjoin := hown.join_unique _ _ _ _ hleads hleads' htable
    obtain rfl := hown.path_unique hleads (hjoin ▸ hleads')
    exact hliteral.value_unique htree hliteral'

end Naming

namespace ConditionTree

variable {s : Schema} {e : Entity} {db : Database} {choice : String → Row}

/-- By a choice that follows its associations a condition holds if each of its literal
entries does on the chosen row. -/
theorem holdsBy_iff {tree : ConditionTree}
    (hfollowed : tree.associations.FollowedBy s db choice e) :
    tree.HoldsBy s db choice e ↔ ∀ path target entry, tree.HasLiteral s target entry e path →
      s.LiteralHolds target entry (choice target.table) := by
  induction tree generalizing e with
  | nil => simp [HoldsBy, HasLiteral]
  | literal name value rest ih =>
      rw [HoldsBy, ih hfollowed]
      constructor
      · rintro ⟨hfirst, hrest⟩ path target entry (⟨_, rfl, rfl⟩ | hliteral)
        · exact hfirst
        · exact hrest path target entry hliteral
      · intro hall
        exact ⟨hall [] e _ (Or.inl ⟨rfl, rfl, rfl⟩),
          fun path target entry hliteral => hall path target entry (Or.inr hliteral)⟩
  | association name inner rest ihInner ihRest =>
      obtain ⟨⟨below, hrelated, hinner⟩, hrest⟩ := hfollowed
      have hresolves : ∃ r, s.Resolves e name r below := hrelated.imp fun _ h => h.1
      obtain ⟨r, hresolves⟩ := hresolves
      rw [HoldsBy, ihRest hrest]
      constructor
      · rintro ⟨⟨below', hrelated', hholds⟩, hlater⟩ path target entry hliteral
        rcases (hasLiteral_association hresolves).mp hliteral with
          ⟨deeper, rfl, hdeeper⟩ | hliteral
        · obtain ⟨r', hresolves', _⟩ := hrelated'
          obtain ⟨_, rfl⟩ := hresolves.unique hresolves'
          exact (ihInner hinner).mp hholds deeper target entry hdeeper
        · exact hlater path target entry hliteral
      · intro hall
        refine ⟨⟨below, hrelated, (ihInner hinner).mpr ?_⟩, ?_⟩
        · exact fun path target entry hliteral => hall (name :: path) target entry
            ((hasLiteral_association hresolves).mpr (Or.inl ⟨path, rfl, hliteral⟩))
        · exact fun path target entry hliteral => hall path target entry (Or.inr hliteral)

end ConditionTree

end RowPolicy
