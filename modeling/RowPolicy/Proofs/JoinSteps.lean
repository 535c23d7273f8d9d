import Mathlib.Logic.Function.Basic
import RowPolicy.Proofs.Combination
import RowPolicy.Proofs.JoinedRow

/-!
# Joining step by step

The joined rows of a statement are built in steps, each of which goes on from every row with
rows of one more table: those to which a relationship leads, those that an outer join finds, or
all rows of a table that is not joined at all. Whatever the steps are, the rows are exactly the
choices that every step allows: each row is such a choice, and each such choice agrees with a
row on the tables joined.
-/

namespace RowPolicy

open Sql (Assignment Column Database Expr Join JoinedRow Row)

namespace Sql

/-- One step in building joined rows. -/
structure JoinStep where
  /-- The rows in which a joined row goes on. -/
  next : JoinedRow → List JoinedRow
  /-- The table of which each of these has a row more. -/
  table : String
  /-- Whether the row of that table may be the one chosen, beside those chosen before. -/
  Allows : (String → Row) → Prop

namespace JoinStep

variable {s : Schema} {db : Database} {known : List String} {step : JoinStep}
  {steps later : List JoinStep} {rows : List JoinedRow} {row row' : JoinedRow}
  {choice : String → Row}

/-- Whether a step, taken where some tables are known, goes on with the rows that it allows. -/
structure Fits (s : Schema) (known : List String) (step : JoinStep) : Prop where
  fresh : step.table ∉ known
  not_isAlias : ¬ s.IsAlias step.table
  sound : ∀ row row', row.Covers s known → row' ∈ step.next row →
    (∃ related, row.Continues s row' step.table related) ∧ step.Allows row'.rowOf
  complete : ∀ row choice, row.Covers s known → (∀ t ∈ known, row.rowOf t = choice t) →
    step.Allows choice → ∃ row' ∈ step.next row, row.Continues s row' step.table (choice step.table)
  congr : ∀ choice choice', (∀ t ∈ step.table :: known, choice t = choice' t) →
    step.Allows choice → step.Allows choice'

/-- Whether each of some steps can be taken after those before it. -/
def InOrder (s : Schema) : List String → List JoinStep → Prop
  | _, [] => True
  | known, step :: rest => step.Fits s known ∧ InOrder s (step.table :: known) rest

theorem InOrder.append (h : InOrder s known steps)
    (hlater : ∀ known', (∀ t, t ∈ known' ↔ t ∈ known ∨ t ∈ steps.map JoinStep.table) →
      InOrder s known' later) : InOrder s known (steps ++ later) := by
  induction steps generalizing known with
  | nil => exact hlater known (by simp)
  | cons step rest ih =>
      refine ⟨h.1, ih h.2 fun known' hknown => hlater known' fun t => ?_⟩
      rw [hknown, List.map_cons, List.mem_cons, List.mem_cons]
      exact or_assoc.trans or_left_comm

/-- What steps in order allow depends on the rows chosen of their tables only. -/
theorem InOrder.allows_congr {choice' : String → Row} (h : InOrder s known steps)
    (hagree : ∀ t ∈ known ++ steps.map JoinStep.table, choice t = choice' t)
    (hallowed : ∀ step ∈ steps, step.Allows choice) : ∀ step ∈ steps, step.Allows choice' := by
  induction steps generalizing known with
  | nil => simp
  | cons step rest ih =>
      obtain ⟨hhere, hlater⟩ := List.forall_mem_cons.mp hallowed
      have hagree' : ∀ t ∈ (step.table :: known) ++ rest.map JoinStep.table,
          choice t = choice' t := fun t ht => hagree t (List.perm_middle.mem_iff.mpr ht)
      refine List.forall_mem_cons.mpr ⟨?_, ih h.2 hagree' hlater⟩
      exact h.1.congr choice choice' (fun t ht => hagree' t (List.mem_append_left _ ht)) hhere

/-- The rows in which joined rows go on after some steps. -/
def run (steps : List JoinStep) (rows : List JoinedRow) : List JoinedRow :=
  steps.foldl (fun rows step => rows.flatMap step.next) rows

/-- A row after some steps goes on from a row before them, and is a choice that all of them
allow. -/
theorem run_sound (h : InOrder s known steps) (hcovers : ∀ row ∈ rows, row.Covers s known)
    (hrow : row' ∈ run steps rows) :
    ∃ row ∈ rows, (∀ t ∈ known, row'.rowOf t = row.rowOf t) ∧
      ∀ step ∈ steps, step.Allows row'.rowOf := by
  -- after each step its table is known as well, and all rows go on to cover the tables known
  induction steps generalizing known rows with
  | nil => exact ⟨row', hrow, fun _ _ => rfl, by simp⟩
  | cons step rest ih =>
      obtain ⟨hstep, hrest⟩ := h
      have hnextCovers : ∀ next ∈ rows.flatMap step.next, next.Covers s (step.table :: known) := by
        intro next hnext
        obtain ⟨row, hrow, hnext⟩ := List.mem_flatMap.mp hnext
        obtain ⟨⟨related, hcontinues⟩, _⟩ := hstep.sound row next (hcovers row hrow) hnext
        exact hcontinues.covers (hcovers row hrow)
      obtain ⟨next, hnext, hagree, hallowed⟩ := ih hrest hnextCovers hrow
      obtain ⟨row, hrow, hnext⟩ := List.mem_flatMap.mp hnext
      obtain ⟨⟨related, hcontinues⟩, hallows⟩ := hstep.sound row next (hcovers row hrow) hnext
      refine ⟨row, hrow, fun t ht => ?_, fun other hother => ?_⟩
      · rw [hagree t (List.mem_cons_of_mem _ ht), hcontinues.rowOf_known (hcovers row hrow) t ht]
      · rcases List.mem_cons.mp hother with rfl | hlater
        · exact hstep.congr _ _ (fun t ht => (hagree t ht).symm) hallows
        · exact hallowed other hlater

/-- Every choice that all steps allow agrees with some row on the tables joined. -/
theorem run_complete (h : InOrder s known steps) (hcovers : row.Covers s known)
    (hrow : row ∈ rows) (hagree : ∀ t ∈ known, row.rowOf t = choice t)
    (hallowed : ∀ step ∈ steps, step.Allows choice) :
    ∃ row' ∈ run steps rows, ∀ t ∈ known ++ steps.map JoinStep.table,
      row'.rowOf t = choice t := by
  -- the row that agrees with the choice so far goes on with the row chosen next
  induction steps generalizing known rows row with
  | nil => exact ⟨row, hrow, by simpa using hagree⟩
  | cons step rest ih =>
      obtain ⟨hstep, hrest⟩ := h
      obtain ⟨hallows, hallowed⟩ := List.forall_mem_cons.mp hallowed
      obtain ⟨next, hnext, hcontinues⟩ := hstep.complete row choice hcovers hagree hallows
      have hagree' : ∀ t ∈ step.table :: known, next.rowOf t = choice t := by
        intro t ht
        rcases List.mem_cons.mp ht with rfl | hknown
        · exact hcontinues.rowOf_target hstep.not_isAlias hstep.fresh hcovers
        · rw [hcontinues.rowOf_known hcovers t hknown, hagree t hknown]
      obtain ⟨row', hrow', hall⟩ := ih hrest (hcontinues.covers hcovers)
        (List.mem_flatMap.mpr ⟨row, hrow, hnext⟩) hagree' hallowed
      exact ⟨row', hrow', fun t ht => hall t (List.perm_middle.mem_iff.mp ht)⟩

end JoinStep

/-! ## Tables that are not joined -/

/-- Going on with every row of a table. -/
def JoinStep.ofTable (db : Database) (table : String) : JoinStep :=
  ⟨fun row => db.extend row table, table, fun choice => choice table ∈ db.rows table⟩

theorem JoinStep.fits_ofTable {s : Schema} {db : Database} {known : List String} {table : String}
    (hfresh : table ∉ known) (halias : ¬ s.IsAlias table) : (ofTable db table).Fits s known where
  fresh := hfresh
  not_isAlias := halias
  sound row row' hcovers hnext := by
    obtain ⟨related, hrelated, rfl⟩ := Database.mem_extend.mp hnext
    have hcontinues := JoinedRow.continues_append s row table related
    refine ⟨⟨related, hcontinues⟩, ?_⟩
    change JoinedRow.rowOf _ table ∈ db.rows table
    rwa [hcontinues.rowOf_target halias hfresh hcovers]
  complete row choice hcovers _ hstored :=
    ⟨_, Database.mem_extend.mpr ⟨choice table, hstored, rfl⟩,
      JoinedRow.continues_append s row table (choice table)⟩
  congr choice choice' hagree hstored := by
    have htable : choice table = choice' table := hagree table List.mem_cons_self
    change choice' table ∈ db.rows table
    rwa [← htable]

/-! ## Joins -/

/-- Whether a join goes on with the row chosen of its table. One that an outer join found is
stored and makes the condition true, and if there is no such row the missing one is chosen. -/
def Join.IsChosen (db : Database) (choice : String → Row) : Join → Prop
  | .related source r target => (Join.related source r target).IsMet db choice
  | .outer subject on =>
      (choice subject.table ∈ db.rows subject.table ∧ on.eval (.ofRows choice) = .yes) ∨
        (choice subject.table = Row.missing ∧ ∀ row ∈ db.rows subject.table,
          on.eval (.ofRows (Function.update choice subject.table row)) ≠ .yes)

/-- Going on by a join. -/
def JoinStep.ofJoin (db : Database) (join : Join × Nat) : JoinStep :=
  ⟨fun row => db.joinOne row join, join.1.table, join.1.IsChosen db⟩

end Sql

namespace Schema

/-- Whether a join can be carried out where some tables are known. -/
def CanJoin (s : Schema) (known : List String) : Join → Prop
  | .related source r target => s.HasJoin (.related source r target) ∧ source.table ∈ known
  | .outer subject on => subject ∈ s.entities ∧ ∀ t ∈ on.tables, t ∈ subject.table :: known

/-- Whether joins can be carried out one after the other. -/
def CanJoinAll (s : Schema) : List String → List Join → Prop
  | _, [] => True
  | known, join :: rest => s.CanJoin known join ∧ s.CanJoinAll (join.table :: known) rest

end Schema

namespace Sql.JoinStep

variable {s : Schema} {db : Database} {known : List String}

theorem fits_related (hs : s.WellFormed) {source target : Entity} {r : Relationship}
    (hjoin : s.HasJoin (.related source r target)) (hsource : source.table ∈ known)
    (hfresh : target.table ∉ known) (number : Nat) :
    (ofJoin db (.related source r target, number)).Fits s known := by
  obtain ⟨_, name, _, _, heq, hlists, hresolves⟩ := hjoin
  obtain ⟨rfl, rfl, rfl⟩ := Join.related.inj heq
  have halias := hs.not_isAlias hresolves.lists.mem
  constructor
  case fresh => exact hfresh
  case not_isAlias => exact halias
  case sound =>
    intro row row' hcovers hnext
    obtain ⟨related, hrelated, hlink, hcontinues⟩ :=
      Database.joinOne_sound hs hresolves hcovers hsource hfresh hlists hnext
    refine ⟨⟨related, hcontinues⟩, ?_⟩
    change _ ∈ _ ∧ _
    rw [hcontinues.rowOf_target halias hfresh hcovers, hcontinues.rowOf_known hcovers _ hsource]
    exact ⟨hrelated, hlink⟩
  case complete =>
    intro row choice hcovers hagree hmet
    obtain ⟨hrelated, hlink⟩ := hmet
    rw [← hagree _ hsource] at hlink
    exact Database.joinOne_complete hs hresolves hcovers hsource hfresh hlists number hrelated hlink
  case congr =>
    intro choice choice' hagree hmet
    exact (Join.isMet_congr (hagree _ (List.mem_cons_of_mem _ hsource))
      (hagree _ List.mem_cons_self)).mp hmet

/-- Conditions on known tables have one value where the rows chosen for these are the same. -/
theorem eval_ofRows_congr {on : Expr} {tables : List String} (htables : ∀ t ∈ on.tables, t ∈ tables)
    {choice choice' : String → Row} (hagree : ∀ t ∈ tables, choice t = choice' t) :
    on.eval (.ofRows choice) = on.eval (.ofRows choice') := by
  refine Expr.eval_congr on fun c hc => ?_
  rw [Assignment.ofRows, Assignment.ofRows, hagree _ (htables _ hc)]

/-- An outer join goes on with the rows for which its condition is true, and with a missing one
if there are none. -/
theorem mem_joinOne_outer {row row' : JoinedRow} {subject : Entity} {on : Expr} {number : Nat} :
    row' ∈ db.joinOne row (.outer subject on, number) ↔
      (∃ related ∈ db.rows subject.table, row' = row ++ [(subject.table, related)] ∧
        Database.holds on row' = true) ∨
      (row' = row ++ [(subject.table, Row.missing)] ∧ ∀ related ∈ db.rows subject.table,
        ¬ Database.holds on (row ++ [(subject.table, related)]) = true) := by
  have hfound : ∀ row', row' ∈ (db.extend row subject.table).filter (Database.holds on) ↔
      ∃ related ∈ db.rows subject.table, row' = row ++ [(subject.table, related)] ∧
        Database.holds on row' = true := by
    intro row'
    rw [List.mem_filter, Database.mem_extend]
    constructor
    · rintro ⟨⟨related, hrelated, rfl⟩, htrue⟩
      exact ⟨related, hrelated, rfl, htrue⟩
    · rintro ⟨related, hrelated, rfl, htrue⟩
      exact ⟨⟨related, hrelated, rfl⟩, htrue⟩
  have hnone : (db.extend row subject.table).filter (Database.holds on) = [] ↔
      ∀ related ∈ db.rows subject.table,
        ¬ Database.holds on (row ++ [(subject.table, related)]) = true := by
    rw [List.filter_eq_nil_iff]
    constructor
    · intro h related hrelated
      exact h _ (Database.mem_extend.mpr ⟨related, hrelated, rfl⟩)
    · intro h row' hrow'
      obtain ⟨related, hrelated, rfl⟩ := Database.mem_extend.mp hrow'
      exact h related hrelated
  rw [← hfound, ← hnone, Database.joinOne]
  cases (db.extend row subject.table).filter (Database.holds on) <;> simp

theorem fits_outer (hs : s.WellFormed) {subject : Entity} {on : Expr}
    (hsubject : subject ∈ s.entities) (htables : ∀ t ∈ on.tables, t ∈ subject.table :: known)
    (hfresh : subject.table ∉ known) (number : Nat) :
    (ofJoin db (.outer subject on, number)).Fits s known := by
  have halias := hs.not_isAlias hsubject
  -- the condition is tested on the row that goes on with each row of the subject
  have hholds : ∀ (row : JoinedRow) (choice : String → Row) (related : Row), row.Covers s known →
      (∀ t ∈ known, row.rowOf t = choice t) →
        (Database.holds on (row ++ [(subject.table, related)]) = true ↔
          on.eval (.ofRows (Function.update choice subject.table related)) = .yes) := by
    intro row choice related hcovers hagree
    have hcontinues := JoinedRow.continues_append s row subject.table related
    have hvalue : on.eval (.ofRows (JoinedRow.rowOf (row ++ [(subject.table, related)]))) =
        on.eval (.ofRows (Function.update choice subject.table related)) := by
      refine eval_ofRows_congr htables fun t ht => ?_
      rcases List.mem_cons.mp ht with rfl | hknown
      · rw [hcontinues.rowOf_target halias hfresh hcovers, Function.update_self]
      · have hne : t ≠ subject.table := fun heq => hfresh (heq ▸ hknown)
        rw [hcontinues.rowOf_known hcovers t hknown, Function.update_of_ne hne, hagree t hknown]
    rw [← hvalue]
    exact beq_iff_eq
  constructor
  case fresh => exact hfresh
  case not_isAlias => exact halias
  case sound =>
    intro row row' hcovers hnext
    change row' ∈ db.joinOne row (.outer subject on, number) at hnext
    rcases mem_joinOne_outer.mp hnext with ⟨related, hrelated, rfl, hfound⟩ | ⟨rfl, hnone⟩
    · have hcontinues := JoinedRow.continues_append s row subject.table related
      refine ⟨⟨_, hcontinues⟩, Or.inl ⟨?_, beq_iff_eq.mp hfound⟩⟩
      rwa [hcontinues.rowOf_target halias hfresh hcovers]
    · have hcontinues := JoinedRow.continues_append s row subject.table Row.missing
      refine ⟨⟨_, hcontinues⟩, Or.inr ⟨hcontinues.rowOf_target halias hfresh hcovers, ?_⟩⟩
      intro related hrelated htrue
      exact hnone related hrelated ((hholds row _ related hcovers
        fun t ht => (hcontinues.rowOf_known hcovers t ht).symm).mpr htrue)
  case complete =>
    intro row choice hcovers hagree hchosen
    change ∃ row' ∈ db.joinOne row (.outer subject on, number), _
    refine ⟨row ++ [(subject.table, choice subject.table)], mem_joinOne_outer.mpr ?_,
      JoinedRow.continues_append s row subject.table (choice subject.table)⟩
    rcases hchosen with ⟨hstored, htrue⟩ | ⟨hmissing, hnone⟩
    · refine Or.inl ⟨_, hstored, rfl, (hholds row choice _ hcovers hagree).mpr ?_⟩
      rwa [Function.update_eq_self]
    · refine Or.inr ⟨by rw [hmissing], fun related hrelated hfound => ?_⟩
      exact hnone related hrelated ((hholds row choice related hcovers hagree).mp hfound)
  case congr =>
    intro choice choice' hagree hchosen
    have hsame : choice subject.table = choice' subject.table := hagree _ List.mem_cons_self
    rcases hchosen with ⟨hstored, htrue⟩ | ⟨hmissing, hnone⟩
    · exact Or.inl ⟨hsame ▸ hstored, by rwa [← eval_ofRows_congr htables hagree]⟩
    · refine Or.inr ⟨hsame ▸ hmissing, fun related hrelated => ?_⟩
      rw [← eval_ofRows_congr htables (fun t ht => ?_)]
      · exact hnone related hrelated
      · by_cases heq : t = subject.table
        · rw [heq, Function.update_self, Function.update_self]
        · rw [Function.update_of_ne heq, Function.update_of_ne heq, hagree t ht]

/-- Joins along relationships that start from known tables can be carried out. -/
theorem canJoinAll_of_inOrder {joins : List Join} (hof : ∀ join ∈ joins, s.HasJoin join)
    (h : Join.InOrder known joins) : s.CanJoinAll known joins := by
  induction joins generalizing known with
  | nil => trivial
  | cons join rest ih =>
      obtain ⟨hjoin, hrest⟩ := List.forall_mem_cons.mp hof
      cases join with
      | related source r target => exact ⟨⟨hjoin, h.1⟩, ih hrest h.2⟩
      | outer subject on => exact h.elim

/-- Joins that can be carried out one after the other are steps in order, if the tables
differ. -/
theorem inOrder_joins (hs : s.WellFormed) {joins : List (Join × Nat)}
    (h : s.CanJoinAll known (joins.map Prod.fst))
    (hnodup : (known ++ joins.map fun join => join.1.table).Nodup) :
    InOrder s known (joins.map (ofJoin db)) := by
  induction joins generalizing known with
  | nil => trivial
  | cons first rest ih =>
      obtain ⟨join, number⟩ := first
      obtain ⟨hjoin, hrest⟩ := h
      obtain ⟨hfresh, hnodup'⟩ := Join.fresh_of_nodup hnodup
      refine ⟨?_, ih hrest hnodup'⟩
      cases join with
      | related source r target => exact fits_related hs hjoin.1 hjoin.2 hfresh number
      | outer subject on => exact fits_outer hs hjoin.1 hjoin.2 hfresh number

theorem inOrder_tables {tables : List String} (hnodup : tables.Nodup)
    (hfresh : ∀ t ∈ tables, t ∉ known) (halias : ∀ t ∈ tables, ¬ s.IsAlias t) :
    InOrder s known (tables.map (ofTable db)) := by
  induction tables generalizing known with
  | nil => trivial
  | cons table rest ih =>
      obtain ⟨hother, hrest⟩ := List.nodup_cons.mp hnodup
      rw [List.forall_mem_cons] at hfresh halias
      refine ⟨fits_ofTable hfresh.1 halias.1, ih hrest (fun t ht hmem => ?_) halias.2⟩
      rcases List.mem_cons.mp hmem with rfl | hknown
      · exact hother ht
      · exact hfresh.2 t ht hknown

end Sql.JoinStep

end RowPolicy
