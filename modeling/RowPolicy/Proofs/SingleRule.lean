import RowPolicy.Proofs.Choice
import RowPolicy.Proofs.Resolving
import RowPolicy.Proofs.Writing
import RowPolicy.Sample.Queries

/-!
# A single allowing rule

A single allowing rule selects the rows of which its condition holds, however deep the condition
is, and each of them once. Its associations may lead to one row or to many, through linking tables
or not, as long as all of them lead to different tables.
-/

namespace RowPolicy

open Sql (Database Expr Join Row Select)

/-- From a row some choice of related rows makes a condition hold if the condition holds of the
row. -/
theorem ConditionTree.holdsOf_iff_exists_choice {s : Schema} {db : Database} {e : Entity}
    {row : Row} {tree : ConditionTree} (htree : tree.hasPlainKeysAndData = true)
    (hown : tree.associations.HasOwnTables s e) :
    tree.HoldsOf s db e row ↔ ∃ choice, choice e.table = row ∧ tree.HoldsBy s db choice e := by
  constructor
  · exact fun h => h.exists_choice htree hown
  · rintro ⟨choice, rfl, h⟩
    exact h.holdsOf

namespace Query

variable {q : Query} {s : Select} {p : Expr} {rule : Rule} {tree : ConditionTree} {db : Database}
  {choice : String → Row}

namespace IsMerged

variable (h : q.IsMerged s p) (hs : q.schema.WellFormed) (hproxy : q.proxy? = none)
  (hrules : ∀ rule ∈ q.rules, rule.HasPlainKeysAndData)
include h hs hproxy hrules

/-- A merged statement that does not join a table directly to itself runs as soon as its values
can be passed. -/
theorem run_eq (hself : s.selfJoin? = none) :
    s.run db = (fun _ => s.withoutRepeats ((s.selected db).map s.cells)) <$>
      (Sql.convertAll s.template.values >>= Sql.passAll) := by
  obtain ⟨hcombines, _⟩ := h.combines hs hproxy hrules
  have hdistinctJoins : ∀ join ∈ s.distinctJoins, q.schema.HasJoin join := fun join hjoin =>
    h.hasJoin join (((Select.distinctJoins_spec h.hasJoin h.inOrder).1 join).mp hjoin)
  rw [hcombines.run_eq, Select.passed_eq hcombines.filter_eq hcombines.isPlain hdistinctJoins hself
    (h.nodup_tables hs hproxy hrules)]

/-- It returns each row once if it drops repetitions wherever a rule crosses to many rows. -/
theorem nodup_returned (hdb : db.Conforms q.schema) (hdistinct : s.distinct = true ↔
      ∃ rule ∈ q.rules, rule.condition.associations.CrossesMany q.schema s.entity) :
    (s.withoutRepeats ((s.selected db).map s.cells)).Nodup := by
  obtain ⟨hcombines, hextra⟩ := h.combines hs hproxy hrules
  refine Select.nodup_returned hs hdb (Schema.lists_of_entity? h.entity_eq).mem
    hcombines.canJoinAll (fun join hjoin hmany => ?_) (fun _ => hextra)
    (h.nodup_tables hs hproxy hrules) Select.selected_sublist
  have hmem := ((Select.distinctJoins_spec h.hasJoin h.inOrder).1 join).mp hjoin
  obtain ⟨rule, hrule, path, hleads⟩ := (h.mem_joins join).mp hmem
  exact hdistinct.mpr ⟨rule, hrule, join, ⟨path, hleads⟩, hmany⟩

end IsMerged

section SingleRule

variable (hlist : q.rules = [rule]) (hallow : rule.allow = true)
  (hmapping : rule.condition = .mapping tree) (htree : tree.hasPlainKeysAndData = true)
include hlist hmapping

theorem hasPlainKeysAndData_of_single (htree : tree.hasPlainKeysAndData = true) :
    ∀ rule ∈ q.rules, rule.HasPlainKeysAndData := by
  have hrule : rule.HasPlainKeysAndData := ⟨tree, hmapping, htree⟩
  rw [hlist]
  exact List.forall_mem_singleton.mpr hrule

include hallow

/-- A single allowing rule allows by a choice if its condition holds by it. -/
theorem allowsBy_iff {e : Entity} : q.AllowsBy db e choice ↔ tree.HoldsBy q.schema db choice e := by
  rw [AllowsBy, hlist, LatestAllows.cons_iff, hmapping]
  simp [LatestAllows.not_nil, hallow, Condition.HoldsBy]

include htree

/-- Its statement returns the cells of the rows of which its condition holds. -/
theorem IsMerged.mem_returned_iff_holdsOf (h : q.IsMerged s p) (hs : q.schema.WellFormed)
    (hproxy : q.proxy? = none) {cells : List Scalar} :
    cells ∈ s.withoutRepeats ((s.selected db).map s.cells) ↔
      ∃ row ∈ db.rows s.entity.table, tree.HoldsOf q.schema db s.entity row ∧
        s.entity.cells row = cells := by
  have hown := h.hasOwnTables rule (by simp [hlist])
  rw [hmapping] at hown
  rw [h.mem_returned hs hproxy (hasPlainKeysAndData_of_single hlist hmapping htree)]
  simp only [allowsBy_iff hlist hallow hmapping,
    ConditionTree.holdsOf_iff_exists_choice htree hown]
  -- all joins are those of the condition, so every choice by which it holds follows them
  constructor
  · rintro ⟨choice, ⟨hrow, _⟩, hholds, rfl⟩
    exact ⟨_, hrow, ⟨choice, rfl, hholds⟩, rfl⟩
  · rintro ⟨_, hrow, ⟨choice, rfl, hholds⟩, rfl⟩
    refine ⟨choice, ⟨hrow, ?_⟩, hholds, rfl⟩
    simpa [hlist, hmapping, Condition.associations] using hholds.followedBy

variable {e : Entity} (hproxy : q.proxy? = none) (hentity : q.schema.entity? q.entity = some e)
  (hresolved : tree.associations.IsResolved q.schema e)
  (htables : (e.table :: (tree.associations.joins q.schema e).map Join.table).Nodup)
include hproxy hentity hresolved htables

/-- The statement for a single allowing rule whose associations resolve to different tables can be
built exactly if its literal entries can. -/
theorem exists_records_iff (hs : q.schema.WellFormed) :
    (∃ records, q.records = .ok records) ↔ tree.IsBuildable q.schema q.entity := by
  have hrules := hasPlainKeysAndData_of_single hlist hmapping htree
  rw [← exists_predicate_iff (isProxy_eq_false hproxy) hlist hallow hmapping hs hentity htree
    hresolved (JoinTree.hasOwnTables_of_nodup htables), records_eq_mergedRecords hproxy
    (by simp [hlist]) fun rule hrule => (hrules rule hrule).isMergeable]
  simp only [mergedRecords_eq_ok]
  constructor
  · rintro ⟨_, p, _, hp, _⟩
    exact ⟨p, hp⟩
  · rintro ⟨p, hp⟩
    have hassociations : ∀ rule ∈ q.rules, rule.condition.associations.IsResolved q.schema e := by
      simpa [hlist, hmapping, Condition.associations] using hresolved
    obtain ⟨s, hstatement, _⟩ := exists_joined hentity hassociations p
    exact ⟨_, p, s, hp, hstatement, rfl⟩

omit hallow in
/-- The statement for such a rule joins no table directly to itself and drops repetitions exactly
if the rule crosses to many rows. -/
theorem single_statement {records : Records} (hrecords : q.records = .ok records) :
    ∃ s p, records = ⟨.select s, some p, q.joins⟩ ∧ q.IsMerged s p ∧ s.entity = e ∧
      s.selfJoin? = none ∧ (s.distinct = true ↔
        ∃ rule ∈ q.rules, rule.condition.associations.CrossesMany q.schema s.entity) := by
  have hassociations : ∀ rule ∈ q.rules, rule.condition.associations = tree.associations := by
    simp [hlist, hmapping, Condition.associations]
  have hrules := hasPlainKeysAndData_of_single hlist hmapping htree
  have hown := JoinTree.hasOwnTables_of_nodup htables
  rw [records_eq_mergedRecords hproxy (by simp [hlist])
    fun rule hrule => (hrules rule hrule).isMergeable, mergedRecords_eq_ok] at hrecords
  obtain ⟨p, s, hp, hstatement, rfl⟩ := hrecords
  obtain ⟨s', hstatement', hdistinct⟩ := exists_joined hentity
    (fun rule hrule => (hassociations rule hrule).symm ▸ hresolved) p
  obtain rfl := Except.ok.inj (hstatement'.symm.trans hstatement)
  obtain ⟨hentity', hfilter, hmem, horder⟩ := joinedStatement_spec hstatement
  obtain rfl := Option.some.inj (hentity.symm.trans hentity')
  have hleads : ∀ join ∈ s'.joins,
      ∃ path, tree.associations.Leads q.schema join s'.entity path := by
    intro join hjoin
    obtain ⟨rule, hrule, hpath⟩ := (hmem join).mp hjoin
    rwa [hassociations rule hrule] at hpath
  have hjoins := joinedStatement_hasJoin hstatement
  refine ⟨s', p, rfl, ⟨hentity, hp, hfilter, hmem, horder,
    Select.nodup_of_hasOwnTables hjoins horder hown hleads⟩, rfl, ?_, hdistinct⟩
  refine Select.selfJoin?_eq_none fun join hjoin => ?_
  obtain ⟨path, hpath⟩ := hleads join hjoin
  obtain ⟨source, name, r, target, rfl, hsource, hresolves⟩ := hjoins join hjoin
  refine ⟨source, r, target, rfl, fun hname => hown.source_ne hpath ?_⟩
  -- entities that the schema lists under one name are the same
  have hsame : some source = some target := hsource.symm.trans (hname ▸ hresolves.lists)
  rw [Option.some.inj hsame]

/-- A statement is built for a single allowing rule whose associations resolve to different tables
exactly if the literal entries can be built. As far as the values can be passed it returns the rows
of which the rule's condition holds. Where the rows keep what the schema promises it returns each
of them once. -/
theorem single_rule_returns (hs : q.schema.WellFormed) :
    ((∃ records, q.records = .ok records) ↔ tree.IsBuildable q.schema q.entity) ∧
    ∀ records, q.records = .ok records → ∃ s p, records = ⟨.select s, some p, q.joins⟩ ∧
      ∀ db : Database, ∃ rows,
        s.run db = (fun _ => rows) <$> (Sql.convertAll s.template.values >>= Sql.passAll) ∧
        (∀ cells, cells ∈ rows ↔
          ∃ row ∈ db.rows e.table, tree.HoldsOf q.schema db e row ∧ e.cells row = cells) ∧
        (db.Conforms q.schema → rows.Perm
          (((db.rows e.table).filter fun row => decide (tree.HoldsOf q.schema db e row)).map
            e.cells)) := by
  have hrules := hasPlainKeysAndData_of_single hlist hmapping htree
  refine ⟨exists_records_iff hlist hallow hmapping htree hproxy hentity hresolved htables hs,
    fun records hrecords => ?_⟩
  obtain ⟨s, p, rfl, h, rfl, hself, hdistinct⟩ :=
    single_statement hlist hmapping htree hproxy hentity hresolved htables hrecords
  refine ⟨s, p, rfl, fun db => ?_⟩
  have hreturned : ∀ cells, cells ∈ s.withoutRepeats ((s.selected db).map s.cells) ↔
      ∃ row ∈ db.rows s.entity.table, tree.HoldsOf q.schema db s.entity row ∧
        s.entity.cells row = cells :=
    fun _ => h.mem_returned_iff_holdsOf hlist hallow hmapping htree hs hproxy
  refine ⟨_, h.run_eq hs hproxy hrules hself, hreturned, fun hdb => ?_⟩
  -- neither side has a row twice, so it is enough that they have the same rows
  have hcells := hdb.nodup_cells (Schema.lists_of_entity? hentity).mem
  refine (List.perm_ext_iff_of_nodup (h.nodup_returned hs hproxy hrules hdb hdistinct)
    (hcells.sublist (List.filter_sublist.map _))).mpr fun cells => ?_
  rw [hreturned cells]
  simp [and_assoc]

end SingleRule

/-- The condition on an organization that a user of it named Alice has published a post that has
some tag. -/
def taggedByAlice : ConditionTree :=
  .association "users" (.literal "name" (.str "Alice") <| .association "posts"
    (.literal "is_published" (.bool true) <| .association "tags" .nil .nil) .nil) .nil

def organizationReading : Query :=
  Sample.reading "Organization" [Sample.readRule true "Organization" taggedByAlice]

theorem organizationReading_returns : ∃ s p j,
    organizationReading.records = .ok ⟨.select s, p, j⟩ ∧ s.distinct = true ∧
      s.run Sample.database = .ok [[.int 1, .str "Acme Corp"]] := by
  have hresolved : taggedByAlice.associations.IsResolved Sample.schema Sample.organization :=
    ⟨⟨_, Sample.user, ⟨rfl, rfl⟩, ⟨_, Sample.post, ⟨rfl, rfl⟩, ⟨_, Sample.tag, ⟨rfl, rfl⟩, trivial⟩,
      trivial⟩, trivial⟩, trivial⟩
  have hbuild : taggedByAlice.IsBuildable Sample.schema "Organization" := by
    intro leaf hleaf
    rcases List.mem_pair.mp hleaf with rfl | rfl
    · exact ⟨"users.name", _, rfl, rfl⟩
    · exact ⟨"posts.is_published", _, rfl, rfl⟩
  obtain ⟨hbuilt, hreturned⟩ := single_rule_returns (q := organizationReading) rfl rfl rfl rfl rfl
    rfl hresolved (by decide +kernel) Sample.wellFormed_schema
  obtain ⟨records, hrecords⟩ := hbuilt.mpr hbuild
  obtain ⟨s, p, rfl, hruns⟩ := hreturned records hrecords
  obtain ⟨rows, hrun, _, hperm⟩ := hruns Sample.database
  have hholding : ((Sample.database.rows "organizations").filter fun row => decide
      (taggedByAlice.HoldsOf Sample.schema Sample.database Sample.organization row)).map
        Sample.organization.cells = [[.int 1, .str "Acme Corp"]] := by decide +kernel
  obtain rfl := List.perm_singleton.mp (hholding ▸ hperm Sample.conforms_database)
  have hrecords' : organizationReading.records = .ok _ := rfl
  obtain ⟨hs, _, _⟩ := Records.mk.inj (Except.ok.inj (hrecords.symm.trans hrecords'))
  obtain rfl := Sql.Statement.select.inj hs
  refine ⟨_, _, _, hrecords, rfl, ?_⟩
  rw [hrun]
  rfl

/-! What is copied into the filter as text may end an entry there, a key with a dot may name a
column of a table that is not joined, and a relationship to one may lead to several rows. Then
other rows are returned, or the same one more than once. -/

/-- Whether a single allowing rule, whose associations resolve to different tables, returns rows
with the given keys. -/
def ReadsSingle (q : Query) (tree : ConditionTree) (e : Entity) (db : Database)
    (keys : List Scalar) : Prop :=
  (∃ rule, q.rules = [rule] ∧ rule.allow = true ∧ rule.condition = .mapping tree) ∧
    q.proxy? = none ∧ q.schema.entity? q.entity = some e ∧
    tree.associations.IsResolved q.schema e ∧
    (e.table :: (tree.associations.joins q.schema e).map Join.table).Nodup ∧
    ∃ s p joins, q.records = .ok ⟨.select s, p, joins⟩ ∧ s.runKeys db = .ok keys

/-- The condition that a post has a title that none has, and a number that equals a text. -/
def untitledPost : ConditionTree :=
  .literal "title" (.str "x") (.literal "id" (.expr (.fragment "1 OR 1")) .nil)

def untitledReading : Query :=
  Sample.reading "Post" [Sample.readRule true "Post" untitledPost]

theorem untitledReading_reads : untitledReading.ReadsSingle untitledPost Sample.post
    Sample.database [.int 1, .int 2, .int 3, .int 4] := by
  refine ⟨⟨_, rfl, rfl, rfl⟩, rfl, rfl, trivial, by decide, _, _, _, rfl, ?_⟩
  dsimp only
  have hnull : String.contains (postsWhere ++ "posts.title = ? AND posts.id = 1 OR 1")
      '\x00' = false := by cbv
  rw [Select.runKeys, Select.run_of_template rfl rfl (by cbv) rfl rfl (by decide +kernel) hnull,
    Sql.ReadQuery.ofText, hnull]
  decide +kernel

/-- The condition that a user is banned, of whom nothing is said on a post. -/
def bannedSomewhere : ConditionTree := .literal "users.banned" (.bool true) .nil

def bannedReading : Query :=
  Sample.reading "Post" [Sample.readRule true "Post" bannedSomewhere]

def reader : Entity where
  name := "Reader"
  table := "readers"
  attributes := [⟨"id", "id", .integer, true⟩]
  relationships :=
    [⟨"card", "Card", false, .direct ⟨"readers", "id", .integer⟩ ⟨"cards", "reader_id", .integer⟩⟩]

/-- Readers with a single card, as far as the schema says. -/
def cardSchema : Schema where
  entities := [reader, ⟨"Card", "cards",
    [⟨"id", "id", .integer, true⟩, ⟨"reader_id", "reader_id", .integer, false⟩], []⟩]
  tables := []
  ancestors := []

/-- A reader with two cards. -/
def cardDatabase : Database where
  columns := cardSchema.columnsOf
  rowNumber? := cardSchema.rowNumber?
  key := fun _ => []
  optional := fun _ => []
  rows
    | "readers" => Sample.rowsOf (cardSchema.columnsOf "readers") [[.int 1]]
    | "cards" => Sample.rowsOf (cardSchema.columnsOf "cards") [[.int 1, .int 1], [.int 2, .int 1]]
    | _ => []

/-- The condition that a reader has a card. -/
def hasCard : ConditionTree := .association "card" .nil .nil

def cardReading : Query :=
  { Sample.reading "Reader" [Sample.readRule true "Reader" hasCard] with schema := cardSchema }

/-- A single rule may return rows of which its condition does not hold, and rows more than once,
even where no two of them have the same primary key. -/
theorem single_rule_misreads :
    (∃ keys, untitledReading.ReadsSingle untitledPost Sample.post Sample.database keys ∧
      keys ≠ [] ∧ ∀ row ∈ Sample.database.rows "posts",
        ¬ untitledPost.HoldsOf Sample.schema Sample.database Sample.post row) ∧
    (∃ keys, bannedReading.ReadsSingle bannedSomewhere Sample.post Sample.database keys ∧
      ¬ keys.Nodup) ∧
    ∃ keys, cardReading.ReadsSingle hasCard reader cardDatabase keys ∧ ¬ keys.Nodup ∧
      ∀ e ∈ cardSchema.entities, ((cardDatabase.rows e.table).map e.keyCells).Nodup := by
  refine ⟨⟨_, untitledReading_reads, List.cons_ne_nil _ _, by decide +kernel⟩,
    ⟨_, ⟨⟨_, rfl, rfl, rfl⟩, rfl, rfl, trivial, by decide, _, _, _, rfl, rfl⟩, by decide +kernel⟩,
    _, ⟨⟨_, rfl, rfl, rfl⟩, rfl, rfl, ?_, by decide, _, _, _, rfl, rfl⟩, by decide +kernel,
      by decide +kernel⟩
  exact ⟨⟨_, _, ⟨rfl, rfl⟩, trivial⟩, trivial⟩

end Query

end RowPolicy
