import RowPolicy.Proofs.ProxyStatement

/-!
# The tables of the filter

The filter is built from the flattened conditions of the rules, the joins from the paths of
their associations or from their subjects. Both cover the same tables, so that no table that
only the filter mentions stands beside the joined ones, unless it comes with an expression that a
rule gives for a value.
-/

namespace RowPolicy

open Sql (Expr Join Select)

namespace Query

variable {q : Query} {s : Select} {p : Expr}

/-- What the statement has to do with tables if its filter keeps to those that are joined, but for
tables that the values of the rules mention. -/
theorem tables_of_keepsTo {data : Prop} (hfilter : s.filter = some p)
    (h : p.KeepsTo s.joinedTables data (q.rules.flatMap Rule.mentioned)) :
    (∀ t ∈ p.tables, t = s.entity.table ∨ (∃ join ∈ s.distinctJoins, join.table = t) ∨
      ∃ rule ∈ q.rules, t ∈ rule.mentioned) ∧
    (∀ t ∈ s.extraTables, ∃ rule ∈ q.rules, t ∈ rule.mentioned) ∧
    (data → s.extraTables = []) := by
  have hmentioned : ∀ t ∈ p.tables, t ∈ s.joinedTables ∨ ∃ rule ∈ q.rules, t ∈ rule.mentioned :=
    fun t ht => (List.mem_append.mp (h.mentioned t ht)).imp_right List.mem_flatMap.mp
  refine ⟨fun t ht => ?_, fun t ht => ?_, fun hdata =>
    Select.extraTables_eq_nil hfilter (h.of_data hdata).2⟩
  · rcases hmentioned t ht with hjoined | hvalue
    · rcases List.mem_cons.mp hjoined with rfl | hjoin
      · exact Or.inl rfl
      · exact Or.inr (Or.inl (List.mem_map.mp hjoin))
    · exact Or.inr (Or.inr hvalue)
  · obtain ⟨ht, hother⟩ := (Select.mem_extraTables hfilter).mp ht
    exact (hmentioned t ht).resolve_left hother

/-- The filter for merged rules keeps to the tables to which the associations lead. -/
theorem joinedStatement_keepsTo (hproxy : q.isProxy = false)
    (hplain : ∀ e ∈ q.schema.entities, splitKey? e.table = none)
    (hrules : ∀ rule ∈ q.rules, rule.condition.isMergeable = true)
    (hkeys : ∀ rule ∈ q.rules, rule.HasPlainKeys) (hp : q.predicate = .ok p)
    (h : q.joinedStatement p = .ok s) :
    p.KeepsTo s.joinedTables (∀ rule ∈ q.rules, rule.ComparesData)
      (q.rules.flatMap Rule.mentioned) ∧
    ∀ join ∈ s.distinctJoins, ∃ rule ∈ q.rules,
      ∃ path, rule.condition.associations.Leads q.schema join s.entity path := by
  obtain ⟨hentity, _, hmem, horder⟩ := joinedStatement_spec h
  have hjoins := joinedStatement_hasJoin h
  have hkeeps : p.KeepsTo (s.entity.table :: s.joins.map Join.table)
      (∀ rule ∈ q.rules, rule.ComparesData) (q.rules.flatMap Rule.mentioned) :=
    predicate_keepsTo hproxy hentity hrules hkeys hp hplain List.mem_cons_self
      fun rule hrule path join hleads => List.mem_cons_of_mem _
        (List.mem_map_of_mem ((hmem join).mpr ⟨rule, hrule, path, hleads⟩))
  refine ⟨hkeeps.mono (fun t ht => (Select.mem_joinedTables hjoins horder).mpr ht) id
    (List.Subset.refl _), fun join hjoin => ?_⟩
  exact (hmem join).mp (((Select.distinctJoins_spec hjoins horder).1 join).mp hjoin)

/-- Where table names have no dot and the keys of mappings name attributes and associations, every
column in the filter belongs to the entity's own table, to a table that is joined, along the
associations of a rule or, for a proxy, as the subject of a rule, or stands in an expression that a
rule gives for a value. So each table that is not joined comes from such an expression, and there is
none if the values are data. -/
theorem filter_tables_joined (hplain : ∀ e ∈ q.schema.entities, splitKey? e.table = none)
    (hrules : ∀ rule ∈ q.rules, rule.condition.isMergeable = true)
    (hkeys : ∀ rule ∈ q.rules, rule.HasPlainKeys) {records : Records}
    (h : q.records = .ok records) :
    ∃ s p, records.statement = .select s ∧ s.filter = some p ∧
      q.schema.entity? q.entity = some s.entity ∧
      ((∀ t ∈ p.tables, t = s.entity.table ∨ (∃ join ∈ s.distinctJoins, join.table = t) ∨
        ∃ rule ∈ q.rules, t ∈ rule.mentioned) ∧
      (∀ t ∈ s.extraTables, ∃ rule ∈ q.rules, t ∈ rule.mentioned) ∧
      ((∀ rule ∈ q.rules, rule.ComparesData) → s.extraTables = [])) ∧
      ∀ join ∈ s.distinctJoins, ∃ rule ∈ q.rules,
        (q.proxy? = none ∧
          ∃ path, rule.condition.associations.Leads q.schema join s.entity path) ∨
        q.JoinsSubject rule join := by
  by_cases hne : q.rules = []
  · obtain ⟨e, hentity, hstatement⟩ := exists_emptyStatement hne h
    exact ⟨_, _, hstatement, rfl, hentity,
      tables_of_keepsTo rfl (Expr.keepsTo_of_tables trivial (fun _ => rfl) (by simp [Expr.tables])),
      fun _ hjoin => by cases hjoin⟩
  cases hproxy : q.proxy? with
  | none =>
      rw [records_eq_mergedRecords hproxy hne hrules, mergedRecords_eq_ok] at h
      obtain ⟨p, s, hp, hs, rfl⟩ := h
      obtain ⟨hentity, hfilter, _, _⟩ := joinedStatement_spec hs
      obtain ⟨hkeeps, hjoins⟩ :=
        joinedStatement_keepsTo (isProxy_eq_false hproxy) hplain hrules hkeys hp hs
      refine ⟨s, p, rfl, hfilter, hentity, tables_of_keepsTo hfilter hkeeps, fun join hjoin => ?_⟩
      obtain ⟨rule, hrule, hleads⟩ := hjoins join hjoin
      exact ⟨rule, hrule, Or.inl ⟨rfl, hleads⟩⟩
  | some field =>
      obtain ⟨s, p, hstatement, hproxied⟩ := exists_proxyStatement hproxy hne
        (scopes_eq_nil hrules) h
      have hdistinct := hproxied.distinctJoins_eq
      have hjoined : s.joins.map Join.table ⊆ s.joinedTables := by
        rw [Select.joinedTables, hdistinct]
        exact List.subset_cons_self _ _
      have hkeeps := (hproxied.filter_keepsTo hplain).mono hjoined id (List.Subset.refl _)
      refine ⟨s, p, hstatement, hproxied.filter_eq, hproxied.entity_eq,
        tables_of_keepsTo hproxied.filter_eq hkeeps, fun join hjoin => ?_⟩
      obtain ⟨rule, hrule, hjoins⟩ := (hproxied.mem_joins join).mp (hdistinct ▸ hjoin)
      exact ⟨rule, hrule, Or.inr hjoins⟩

/-- The approved comments on posts by users of one organization are readable, but later none
on an unpublished post. -/
def talkReading : Query := Sample.reading "Comment"
  [Sample.readRule false "Comment"
      (.association "post" (.literal "is_published" (.bool false) .nil) .nil),
    Sample.readRule true "Comment" (.literal "approved" (.bool true) <|
      .association "post" (.association "author" (.literal "org_id" (.int 1) .nil) .nil) .nil)]

theorem talkReading_tables : ∃ records s p, talkReading.records = .ok records ∧
    records.statement = .select s ∧ s.filter = some p ∧
      p.tables = ["posts", "comments", "users"] ∧ s.extraTables = [] ∧
      ∀ t ∈ p.tables, t = s.entity.table ∨ ∃ join ∈ s.distinctJoins, join.table = t := by
  have hrules : ∀ rule ∈ talkReading.rules, rule.HasPlainKeysAndData := by
    intro rule hrule
    rcases List.mem_pair.mp hrule with rfl | rfl <;> exact ⟨_, rfl, rfl⟩
  have hrecords : talkReading.records = .ok _ := rfl
  obtain ⟨s, p, hs, hp, _, ⟨htables, _, hextra⟩, _⟩ :=
    filter_tables_joined Sample.wellFormed_schema.table_plain
      (fun rule hrule => (hrules rule hrule).isMergeable)
      (fun rule hrule => (hrules rule hrule).hasPlainKeys) hrecords
  have hnone : ∀ rule ∈ talkReading.rules, rule.mentioned = [] := by decide
  refine ⟨_, s, p, hrecords, hs, hp, ?_, hextra fun rule hrule => (hrules rule hrule).comparesData,
    fun t ht => (htables t ht).imp_right fun h => h.resolve_right ?_⟩
  · obtain rfl := Sql.Statement.select.inj hs
    obtain rfl := Option.some.inj hp
    rfl
  · rintro ⟨rule, hrule, hmentioned⟩
    simp [hnone rule hrule] at hmentioned

/-- Whether a query for mappings whose keys have no dot, at all depths, has a statement whose filter
mentions a table that is not joined. -/
def MentionsUnjoined (q : Query) (table : String) : Prop :=
  (∀ rule ∈ q.rules, ∃ tree, rule.condition = .mapping tree ∧
    ∀ leaf ∈ tree.leaves, splitKey? leaf.name = none) ∧
    ∃ s p joins, q.records = .ok ⟨.select s, some p, joins⟩ ∧ table ∈ p.tables ∧
      table ∉ s.joinedTables

/-- Posts are readable that are published or not, just as some user is banned or not. -/
def flaggedReading : Query := Sample.reading "Post" [Sample.readRule true "Post"
  (.literal "is_published" (.expr (.compare .eq ⟨"users", "banned", .truth⟩ (.truth true))) .nil)]

/-- Shelves with a memo, where the name of the memos' table begins with that of another one. -/
def shelfSchema : Schema where
  entities :=
    [⟨"Shelf", "shelves", [⟨"id", "id", .integer, true⟩],
        [⟨"memo", "Memo", false,
          .direct ⟨"shelves", "id", .integer⟩ ⟨"notes.memo", "id", .integer⟩⟩]⟩,
      ⟨"Memo", "notes.memo", [⟨"id", "id", .integer, true⟩], []⟩,
      ⟨"Note", "notes", [⟨"memo.id", "memo.id", .integer, true⟩], []⟩]
  tables := []
  ancestors := []

/-- The shelves with the first memo are readable. -/
def shelfReading : Query := { Sample.reading "Shelf" [Sample.readRule true "Shelf"
  (.association "memo" (.literal "id" (.int 1) .nil) .nil)] with schema := shelfSchema }

/-- The filter mentions a table that is not joined where an expression on it is given for a value,
and where a reference is split within the name of a table. -/
theorem unjoined_tables_mentioned :
    flaggedReading.MentionsUnjoined "users" ∧ shelfReading.MentionsUnjoined "notes" := by
  refine ⟨⟨?_, _, _, _, rfl, by decide, by decide⟩, ?_, _, _, _, rfl, by decide, by decide⟩ <;>
  · intro rule hrule
    obtain rfl := List.mem_singleton.mp hrule
    exact ⟨_, rfl, by decide⟩

end Query

end RowPolicy
