import RowPolicy.Proofs.Opposite

/-!
# Conditions under the own table

The entries of a condition may stand under the names of attributes or, as they do for the subjects
of a proxy, under the table of the entity. An attribute is the same column either way. A column of
the table that is no attribute of the entity is found under the table only. So without
associations a condition stands for the same expression either way or fails for the same reason,
unless it names such a column.
-/

namespace RowPolicy

open Sql (Column Expr)

/-- The expression that a condition on an entity stands for, its entries under the table of the
entity if `qualify` holds. -/
def Condition.expr (c : Condition) (s : Schema) (qualify : Bool) (entity : String) :
    Except FilterError Expr := do
  (← liftSchema (c.toFilter s.naming qualify entity)).toExpr s entity

/-- The conditions of rules are put under the table for a proxy. -/
theorem Query.conditionExpr_eq (q : Query) (rule : Rule) (entity : String) :
    q.conditionExpr rule entity = liftFilter (rule.condition.expr q.schema q.isProxy entity) := by
  unfold conditionExpr ruleFilter Condition.expr
  cases rule.condition.toFilter q.schema.naming q.isProxy entity <;> rfl

/-! ## Entries under other keys -/

namespace Entries

variable {κ κ' α : Type} [DecidableEq κ] [DecidableEq κ'] {f : κ → κ'}

theorem insert_map (hf : f.Injective) (key : κ) (value : α) (entries : List (κ × α)) :
    insert (f key) value (entries.map (Prod.map f id)) =
      (insert key value entries).map (Prod.map f id) := by
  induction entries with
  | nil => rfl
  | cons first rest ih =>
      obtain ⟨k, v⟩ := first
      by_cases hkey : k = key
      · simp [insert, hkey]
      · have hne : f k ≠ f key := fun heq => hkey (hf heq)
        simp [insert, hkey, hne, ih]

end Entries

/-- Where different keys stay different, entries can be put under other keys before or after they
are inserted. -/
theorem Dict.entries_ofList_map {κ κ' α : Type} [DecidableEq κ] [DecidableEq κ'] {f : κ → κ'}
    (hf : f.Injective) (entries : List (κ × α)) :
    (ofList (entries.map (Prod.map f id))).entries =
      (ofList entries).entries.map (Prod.map f id) := by
  have hall : ∀ (d : Dict κ α) (d' : Dict κ' α), d'.entries = d.entries.map (Prod.map f id) →
      (d'.insertAll (entries.map (Prod.map f id))).entries =
        (d.insertAll entries).entries.map (Prod.map f id) := by
    induction entries with
    | nil => exact fun _ _ h => h
    | cons first rest ih =>
        intro d d' h
        refine ih (d.insert first.1 first.2) (d'.insert (f first.1) first.2) ?_
        change Entries.insert _ _ d'.entries = (Entries.insert _ _ d.entries).map _
        rw [h, Entries.insert_map hf]
  exact hall ∅ ∅ rfl

theorem qualifiedKey_injective (table : String) : (qualifiedKey table).Injective := by
  intro name name' h
  have hlist : table.toList ++ '.' :: name.toList = table.toList ++ '.' :: name'.toList := by
    simpa [qualifiedKey] using congrArg String.toList h
  exact String.toList_inj.mp (List.cons.inj (List.append_cancel_left hlist)).2

namespace Naming

variable {n : Naming} {qualify : Bool} {entity : String} {key : String → String}
  {tree : ConditionTree}

/-- Without associations the entries of a condition are those of the filter. -/
theorem flatten_of_flat (hkey : ∀ name, n.ownKey qualify entity name = .ok (key name))
    (hflat : tree.associations = .nil) : n.flatten qualify entity tree =
      .ok (.ofList (tree.literals.map (Prod.map key id))) := by
  have hall : ∀ acc : Dict String Value, n.flattenInto qualify entity tree acc =
      .ok (acc.insertAll (tree.literals.map (Prod.map key id))) := by
    induction tree with
    | nil => exact fun _ => rfl
    | literal name value rest ih =>
        intro acc
        rw [flattenInto, hkey]
        exact ih hflat _
    | association name inner rest => cases hflat
  exact hall ∅

end Naming

/-! ## Results that are alike unless one is refused -/

namespace Outcome

variable {ε ε' α β γ : Type} {S : ε → ε' → Prop} {T : α → β → Prop} {P : ε → Prop}

theorem Related.refl {S : ε → ε → Prop} (hS : ∀ e, S e e) (x : Except ε α) : Related S Eq x x := by
  cases x with
  | error e => exact .error (hS e)
  | ok a => exact .ok rfl

theorem Related.eq_ok {x : Except ε α} {y : Except ε' α} {a : α} (h : Related S Eq x y) :
    x = .ok a ↔ y = .ok a := by
  cases h with
  | error _ => simp
  | ok hab => simp [hab]

/-- Going through a list gives related results up to the first element that one of the two
refuses. -/
theorem Related.mapM_or {f : γ → Except ε α} {g : γ → Except ε' β} {as : List γ}
    (h : ∀ a ∈ as, Related S T (f a) (g a) ∨ ∃ e, f a = .error e ∧ P e) :
    Related S (List.Forall₂ T) (as.mapM f) (as.mapM g) ∨ ∃ e, as.mapM f = .error e ∧ P e := by
  induction as with
  | nil => exact Or.inl (.ok .nil)
  | cons a as ih =>
      obtain ⟨ha, has⟩ := List.forall_mem_cons.mp h
      rw [List.mapM_cons, List.mapM_cons]
      rcases ha with hrelated | ⟨e, he, hrefused⟩
      · generalize f a = x, g a = y at hrelated
        cases hrelated with
        | error herror => exact Or.inl (.error herror)
        | ok hab =>
            rcases ih has with hrest | ⟨e, he, hrefused⟩
            · exact Or.inl (hrest.bind fun _ _ hbs => .ok (.cons hab hbs))
            · exact Or.inr ⟨e, by rw [he]; rfl, hrefused⟩
      · exact Or.inr ⟨e, by rw [he]; rfl, hrefused⟩

end Outcome

/-! ## Looking up columns -/

/-- The same failure, where a key that is not there may be reported under the table. -/
def FilterError.IsUnder (entity table : String) (e e' : FilterError) : Prop :=
  e' = e ∨ ∃ name, e = .schema (.unknown entity name) ∧
    e' = .schema (.unknown entity (qualifiedKey table name))

theorem FilterError.IsUnder.refl {entity table : String} (e : FilterError) :
    e.IsUnder entity table e :=
  Or.inl rfl

namespace Schema

variable {s : Schema} {entity name : String} {e : Entity}

/-- An entity whose keys can be put under its table: the table has no dot in its name, and other
entities stored in it keep the attributes that they share with this one in the same columns. -/
structure CanQualify (s : Schema) (e : Entity) : Prop where
  table_plain : splitKey? e.table = none
  column_shared : ∀ other ∈ s.entities, other.table = e.table → ∀ name a b,
    e.attribute? name = some a → other.attribute? name = some b → other.column b = e.column a

theorem WellFormed.canQualify (hs : s.WellFormed) (he : e ∈ s.entities) : s.CanQualify e where
  table_plain := hs.table_plain e he
  column_shared other hother htable name a b ha hb := by
    have hown := hs.qualifiedColumn?_of_attribute? he ha
    have hshared := hs.qualifiedColumn?_of_attribute? hother hb
    rw [htable, hown] at hshared
    exact (Option.some.inj hshared).symm

/-- A name for a column of an entity's table that is no attribute of the entity. -/
def IsTableOnly (s : Schema) (e : Entity) (name : String) : Prop :=
  e.attribute? name = none ∧ (s.qualifiedColumn? e.table name).isSome = true

theorem CanQualify.qualifiedColumn?_of_attribute? (hs : s.CanQualify e) (he : e ∈ s.entities)
    {a : Attribute} (ha : e.attribute? name = some a) :
    s.qualifiedColumn? e.table name = some (e.column a) := by
  unfold qualifiedColumn?
  dsimp only
  split
  next other hother =>
    have hfound := List.find?_some hother
    simp only [Bool.and_eq_true, beq_iff_eq] at hfound
    obtain ⟨b, hb⟩ := Option.isSome_iff_exists.mp hfound.2
    rw [hb, Option.map_some, hs.column_shared other (List.mem_of_find?_eq_some hother) hfound.1
      name a b ha hb]
  next hnone =>
    have hnot := List.find?_eq_none.mp hnone e he
    simp [ha] at hnot

theorem column_of_plain (hentity : s.entity? entity = some e) (hname : splitKey? name = none) :
    s.column entity name = match e.attribute? name with
      | some a => .ok (e.column a)
      | none => .error (.unknown entity name) := by
  simp only [column, Schema.entity, hentity, hname, bind, Except.bind]
  cases e.attribute? name <;> rfl

theorem column_of_qualified (hentity : s.entity? entity = some e)
    (htable : splitKey? e.table = none) :
    s.column entity (qualifiedKey e.table name) = match s.qualifiedColumn? e.table name with
      | some c => .ok c
      | none => .error (.unknown entity (qualifiedKey e.table name)) := by
  simp only [column, Schema.entity, hentity, splitKey?_qualifiedKey htable, bind, Except.bind]
  cases s.qualifiedColumn? e.table name <;> rfl

/-- Put under the table, a key names the same column, or it is unknown as before, unless it is
a column of the table only. -/
theorem column_related (hentity : s.entity? entity = some e) (hs : s.CanQualify e)
    (hname : splitKey? name = none) :
    Outcome.Related (FilterError.IsUnder entity e.table) Eq (liftSchema (s.column entity name))
        (liftSchema (s.column entity (qualifiedKey e.table name))) ∨
      s.IsTableOnly e name ∧ s.column entity name = .error (.unknown entity name) := by
  rw [column_of_plain hentity hname, column_of_qualified hentity hs.table_plain]
  cases hattribute : e.attribute? name with
  | some a =>
      rw [hs.qualifiedColumn?_of_attribute? (List.mem_of_find?_eq_some hentity) hattribute]
      exact Or.inl (.ok rfl)
  | none =>
      cases hcolumn : s.qualifiedColumn? e.table name with
      | some c => exact Or.inr ⟨⟨hattribute, by rw [hcolumn]; rfl⟩, rfl⟩
      | none => exact Or.inl (.error (Or.inr ⟨name, rfl, rfl⟩))

theorem entryExpr_related (hentity : s.entity? entity = some e) (hs : s.CanQualify e)
    {entry : String × Value} (hname : splitKey? entry.1 = none) :
    Outcome.Related (FilterError.IsUnder entity e.table) Eq (s.entryExpr entity entry)
        (s.entryExpr entity (Prod.map (qualifiedKey e.table) id entry)) ∨
      s.IsTableOnly e entry.1 ∧
        s.entryExpr entity entry = .error (.schema (.unknown entity entry.1)) := by
  unfold entryExpr
  refine (column_related hentity hs hname).imp (fun hrelated => ?_) fun ⟨honly, hunknown⟩ => ?_
  · refine hrelated.bind fun c c' hc => ?_
    subst hc
    exact .refl FilterError.IsUnder.refl _
  · exact ⟨honly, by rw [hunknown]; rfl⟩

theorem mappingExpr_related (hentity : s.entity? entity = some e) (hs : s.CanQualify e)
    {entries : List (String × Value)} (hnames : ∀ entry ∈ entries, splitKey? entry.1 = none) :
    Outcome.Related (FilterError.IsUnder entity e.table) Eq (s.mappingExpr entity entries)
        (s.mappingExpr entity (entries.map (Prod.map (qualifiedKey e.table) id))) ∨
      ∃ entry ∈ entries, s.IsTableOnly e entry.1 ∧
        s.mappingExpr entity entries = .error (.schema (.unknown entity entry.1)) := by
  unfold mappingExpr
  rw [List.isEmpty_map, List.mapM_map]
  split
  next => exact Or.inl (.ok rfl)
  next =>
    have hparts := Outcome.Related.mapM_or (P := fun err => ∃ entry ∈ entries,
        s.IsTableOnly e entry.1 ∧ err = .schema (.unknown entity entry.1))
      fun entry hentry => (entryExpr_related hentity hs (hnames entry hentry)).imp id
        fun ⟨honly, hunknown⟩ => ⟨_, hunknown, entry, hentry, honly, rfl⟩
    rcases hparts with hrelated | ⟨_, hrefused, entry, hentry, honly, rfl⟩
    · exact Or.inl (hrelated.bind fun parts parts' hparts => by
        obtain rfl := List.forall₂_eq_eq_eq ▸ hparts
        exact .ok rfl)
    · exact Or.inr ⟨entry, hentry, honly, by rw [hrefused]; rfl⟩

end Schema

namespace Condition

variable {s : Schema} {entity : String} {e : Entity} {tree : ConditionTree}

theorem expr_of_flat {key : String → String} {qualify : Bool}
    (hkey : ∀ name, s.naming.ownKey qualify entity name = .ok (key name)) (hinj : key.Injective)
    (hflat : tree.associations = .nil) : (mapping tree).expr s qualify entity =
      s.mappingExpr entity ((Dict.ofList tree.literals).entries.map (Prod.map key id)) := by
  rw [expr, toFilter, Naming.flatten_of_flat hkey hflat, ← Dict.entries_ofList_map hinj]
  rfl

theorem expr_plain (hflat : tree.associations = .nil) : (mapping tree).expr s false entity =
    s.mappingExpr entity (Dict.ofList tree.literals).entries := by
  have hown : ∀ name, s.naming.ownKey false entity name = .ok (id name) := fun _ => rfl
  rw [expr_of_flat hown Function.injective_id hflat, Prod.map_id, List.map_id]

theorem expr_qualified (hentity : s.entity? entity = some e) (hflat : tree.associations = .nil) :
    (mapping tree).expr s true entity = s.mappingExpr entity
      ((Dict.ofList tree.literals).entries.map (Prod.map (qualifiedKey e.table) id)) := by
  refine expr_of_flat (fun name => ?_) (qualifiedKey_injective e.table) hflat
  have htable : s.naming.table entity = .ok e.table := by
    simp only [Schema.naming, Schema.table, Schema.entity, hentity]
    rfl
  simp [Naming.ownKey, htable]

/-- The entries that a condition without associations leaves in the filter are some of its own. -/
theorem extends_literals (tree : ConditionTree) :
    (∅ : Dict String Value).Extends (.ofList tree.literals) (· ∈ tree.literals) :=
  Dict.extends_insertAll tree.literals

/-- Without the table only attributes are found. -/
theorem isSome_attribute?_of_expr (hentity : s.entity? entity = some e)
    (hflat : tree.associations = .nil) {p : Expr}
    (h : (mapping tree).expr s false entity = .ok p) {entry : String × Value}
    (hentry : entry ∈ tree.literals) (hname : splitKey? entry.1 = none) :
    (e.attribute? entry.1).isSome := by
  -- a later entry may have replaced the value, but the key is looked up all the same
  obtain ⟨kept, hkept, hkey⟩ := List.mem_map.mp ((extends_literals tree).key_mem entry hentry)
  obtain ⟨part, hpart⟩ := Schema.exists_mappingExpr_iff.mp ⟨p, expr_plain hflat ▸ h⟩ kept hkept
  obtain ⟨c, hcolumn, _⟩ := Schema.entryExpr_eq_ok.mp hpart
  rw [hkey, Schema.column_of_plain hentity hname] at hcolumn
  cases hattribute : e.attribute? entry.1 with
  | some a => rfl
  | none =>
      rw [hattribute] at hcolumn
      cases hcolumn

/-- A condition without associations on an entity stands for the same expression whether its
entries are put under the table or not, or it fails for the same reason. If it does not, one of
its keys is a column of the table and no attribute of the entity, and is not found unless it is put
under the table. So an expression that it stands for under the table is that without the table
exactly if all keys are attributes. -/
theorem qualified_alike (tree : ConditionTree) (hentity : s.entity? entity = some e)
    (hs : s.CanQualify e) (hflat : tree.associations = .nil)
    (hkeys : ∀ entry ∈ tree.literals, splitKey? entry.1 = none) :
    (Outcome.Related (FilterError.IsUnder entity e.table) Eq ((mapping tree).expr s false entity)
        ((mapping tree).expr s true entity) ∨
      ∃ entry ∈ tree.literals, e.attribute? entry.1 = none ∧
        (∃ c, s.column entity (qualifiedKey e.table entry.1) = .ok c) ∧
        (mapping tree).expr s false entity = .error (.schema (.unknown entity entry.1))) ∧
    ∀ p, (mapping tree).expr s true entity = .ok p →
      ((mapping tree).expr s false entity = .ok p ↔
        ∀ entry ∈ tree.literals, (e.attribute? entry.1).isSome) := by
  have halike := Schema.mappingExpr_related hentity hs
    fun entry hentry => hkeys entry ((extends_literals tree).of_mem hentry)
  rw [← expr_plain hflat, ← expr_qualified hentity hflat] at halike
  refine ⟨halike.imp_right ?_, fun p hp => ⟨fun hsame entry hentry => ?_, fun hall => ?_⟩⟩
  · rintro ⟨entry, hentry, ⟨hattribute, hcolumn⟩, hrefused⟩
    refine ⟨entry, (extends_literals tree).of_mem hentry, hattribute, ?_, hrefused⟩
    obtain ⟨c, hc⟩ := Option.isSome_iff_exists.mp hcolumn
    exact ⟨c, by rw [Schema.column_of_qualified hentity hs.table_plain, hc]⟩
  · exact isSome_attribute?_of_expr hentity hflat hsame hentry (hkeys entry hentry)
  · rcases halike with hrelated | ⟨entry, hentry, ⟨hattribute, _⟩, _⟩
    · exact hrelated.eq_ok.mpr hp
    · have hsome := hall entry ((extends_literals tree).of_mem hentry)
      rw [hattribute] at hsome
      cases hsome

/-- The articles with a title of their own and a score. -/
def scoredIntro : ConditionTree :=
  .literal "title" (.str "Intro") <| .literal "score" (.comparison ⟨.gt, .plain⟩ (.int 3)) .nil

theorem scoredIntro_alike : ∃ p, (mapping scoredIntro).expr Sample.schema true "Article" = .ok p ∧
    (mapping scoredIntro).expr Sample.schema false "Article" = .ok p := by
  have hentity : Sample.schema.entity? "Article" = some Sample.article := rfl
  have hs : Sample.schema.CanQualify Sample.article :=
    Sample.wellFormed_schema.canQualify (by simp [Sample.schema])
  have hkeys : ∀ entry ∈ scoredIntro.literals, splitKey? entry.1 = none := by decide +kernel
  obtain ⟨_, hsame⟩ := qualified_alike scoredIntro hentity hs rfl hkeys
  obtain ⟨p, hp⟩ : ∃ p, (mapping scoredIntro).expr Sample.schema true "Article" = .ok p := ⟨_, rfl⟩
  exact ⟨p, hp, (hsame p hp).mpr (by decide +kernel)⟩

/-- Notes in a table with a dot in its name. -/
def dottedNotes : Schema := ⟨[⟨"Note", "main.notes", [Sample.key "id" .integer], []⟩], [], []⟩

/-- Persons, and members that are stored with them and are called by another name. -/
def sharedPeople : Schema :=
  ⟨[⟨"Person", "people", [⟨"name", "full_name", .text, false⟩], []⟩,
    ⟨"Member", "people", [⟨"name", "nick_name", .text, false⟩], []⟩], [], []⟩

/-- The headline of an article is found under the table only, and an unsuitable operand is refused
by another error either way. A dot in the name of the table or another entity in it leads
elsewhere. -/
theorem headline_differs :
    ((mapping (.literal "headline" (.str "Intro") .nil)).expr Sample.schema false "Article" =
        .error (.schema (.unknown "Article" "headline")) ∧
      ∃ p, (mapping (.literal "headline" (.str "Intro") .nil)).expr Sample.schema true "Article" =
        .ok p) ∧
    (∀ qualify, (mapping (.literal "score" (.comparison ⟨.gt, .plain⟩ .null) .nil)).expr
      Sample.schema qualify "Article" = .error (.unsuitable .gt)) ∧
    ((∃ p, (mapping (.literal "id" (.int 1) .nil)).expr dottedNotes false "Note" = .ok p) ∧
      (mapping (.literal "id" (.int 1) .nil)).expr dottedNotes true "Note" =
        .error (.schema (.unknown "Note" "main.notes.id"))) ∧
    (mapping (.literal "name" (.str "Al") .nil)).expr sharedPeople false "Member" =
      .ok (Operator.equality false ⟨"people", "nick_name", .text⟩ (.str "Al")) ∧
    (mapping (.literal "name" (.str "Al") .nil)).expr sharedPeople true "Member" =
      .ok (Operator.equality false ⟨"people", "full_name", .text⟩ (.str "Al")) := by
  refine ⟨⟨rfl, _, rfl⟩, ?_, ⟨⟨_, rfl⟩, rfl⟩, rfl, rfl⟩
  intro qualify
  cases qualify <;> rfl

end Condition

end RowPolicy
