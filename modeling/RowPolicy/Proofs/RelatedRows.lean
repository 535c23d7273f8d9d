import RowPolicy.Proofs.Accessible
import RowPolicy.Proofs.Choice
import RowPolicy.Sample.Queries
import RowPolicy.Sample.Rows

/-!
# Rules about related rows

A rule with an association holds of a row if some related row satisfies it, but the
statement of a query decides for each combination of related rows by itself. So a denying
rule is evaded where another related row does not satisfy it, and a row without any related
row is lost. Neither happens where associations lead to one row each.
-/

namespace RowPolicy

open Sql (Database Expr Join Row Select)

theorem Sample.hasPlainKeysAndData_readRule {allow : Bool} {subject : String} {tree : ConditionTree}
    (h : tree.hasPlainKeysAndData = true) :
    (Sample.readRule allow subject tree).HasPlainKeysAndData :=
  ⟨tree, rfl, h⟩

namespace Query

variable {q : Query} {s : Select} {e : Entity} {db : Database} {choice : String → Row}
  {row : Row}

/-- Whether the latest rule whose condition holds of a row allows. -/
def Allows (q : Query) (db : Database) (e : Entity) (row : Row) : Prop :=
  LatestAllows (fun rule => rule.condition.HoldsOf q.schema db e row) q.rules

/-- What is allowed by a choice is allowed, unless a denying rule holds by other rows. -/
theorem AllowsBy.allows (hreached : q.ReachedBy db e choice)
    (hsingle : ∀ rule ∈ q.rules, rule.allow = false → rule.condition.IsSingle q.schema db e)
    (h : q.AllowsBy db e choice) : q.Allows db e (choice e.table) :=
  h.mono (fun _ _ => Condition.HoldsBy.holdsOf) fun rule hrule hdeny hholds =>
    (hsingle rule hrule hdeny).holdsBy hreached.1 (hreached.2 rule hrule) hholds

section Returned

variable (hs : q.schema.WellFormed) (hproxy : q.proxy? = none) (hne : q.rules ≠ [])
  (hrules : ∀ rule ∈ q.rules, rule.HasPlainKeysAndData) {predicate : Option Expr}
  {joins : Option JoinList} (hrecords : q.records = .ok ⟨.select s, predicate, joins⟩)
  {values : List Scalar} (hpassed : s.passed = .ok values)
include hs hproxy hne hrules hrecords hpassed

/-- A row returned is one that the latest rule holding of it allows, unless a choice of
related rows evades a denying rule. In any case some allowing rule holds of it, and nothing
is evaded where denying rules lead to one row at most. -/
theorem returned_allows_iff (db : Database) :
    ∃ result, s.run db = .ok result ∧
      (∀ cells ∈ result, ∃ row ∈ db.rows s.entity.table, s.entity.cells row = cells ∧
        ∃ rule ∈ q.rules, rule.allow = true ∧
          rule.condition.HoldsOf q.schema db s.entity row) ∧
      ((∀ cells ∈ result, ∃ row ∈ db.rows s.entity.table, s.entity.cells row = cells ∧
          q.Allows db s.entity row) ↔
        ∀ choice, q.ReachedBy db s.entity choice → q.AllowsBy db s.entity choice →
          ∃ row ∈ db.rows s.entity.table,
            s.entity.cells row = s.entity.cells (choice s.entity.table) ∧
              q.Allows db s.entity row) ∧
      ((∀ rule ∈ q.rules, rule.allow = false →
          rule.condition.IsSingle q.schema db s.entity) →
        ∀ cells ∈ result, ∃ row ∈ db.rows s.entity.table, s.entity.cells row = cells ∧
          q.Allows db s.entity row) := by
  obtain ⟨result, hrun, hresult⟩ :=
    exists_merged_run db hs hproxy hne hrules hrecords hpassed
  refine ⟨result, hrun, fun cells hcells => ?_, ⟨fun h choice hreached hallows => ?_,
    fun h cells hcells => ?_⟩, fun hsingle cells hcells => ?_⟩
  · obtain ⟨choice, hreached, hallows, rfl⟩ := (hresult cells).mp hcells
    obtain ⟨rule, hrule, hholds, hallow⟩ := hallows.exists_rule
    exact ⟨_, hreached.1, rfl, rule, hrule, hallow, Condition.HoldsBy.holdsOf hholds⟩
  · exact h _ ((hresult _).mpr ⟨choice, hreached, hallows, rfl⟩)
  · obtain ⟨choice, hreached, hallows, rfl⟩ := (hresult cells).mp hcells
    exact h choice hreached hallows
  · obtain ⟨choice, hreached, hallows, rfl⟩ := (hresult cells).mp hcells
    exact ⟨_, hreached.1, rfl, hallows.allows hreached hsingle⟩

end Returned

/-- All users are readable, but later none of one organization. -/
def globexDenied : Query := Sample.reading "User"
  [Sample.readRule false "User"
      (.association "organization" (.literal "name" (.str "Globex") .nil) .nil),
    Sample.readRule true "User" .nil]

/-- A user belongs to one organization at most. -/
theorem isSingle_organization (inner : ConditionTree)
    (h : inner.IsSingle Sample.schema Sample.database Sample.organization) :
    (ConditionTree.association "organization" inner .nil).IsSingle Sample.schema Sample.database
      Sample.user := by
  have hone : ∀ row ∈ Sample.database.rows "users",
      ¬ (Database.linked (.int 1) (row "org_id") = true ∧
        Database.linked (.int 2) (row "org_id") = true) := by decide +kernel
  refine ⟨?_, ?_, trivial⟩
  · rintro row hrow target related target' related' ⟨r, ⟨hr, htarget⟩, hmem, hlink⟩
      ⟨r', ⟨hr', htarget'⟩, hmem', hlink'⟩
    obtain rfl := Option.some.inj hr
    obtain rfl := Option.some.inj hr'
    obtain rfl := Option.some.inj htarget
    obtain rfl := Option.some.inj htarget'
    change related ∈ [_, _] at hmem
    change related' ∈ [_, _] at hmem'
    simp only [List.mem_cons, List.not_mem_nil, or_false] at hmem hmem'
    rcases hmem with rfl | rfl <;> rcases hmem' with rfl | rfl
    · rfl
    · exact (hone row hrow ⟨hlink, hlink'⟩).elim
    · exact (hone row hrow ⟨hlink', hlink⟩).elim
    · rfl
  · rintro row _ target related ⟨r, ⟨hr, htarget⟩, _⟩
    obtain rfl := Option.some.inj hr
    obtain rfl := Option.some.inj htarget
    exact h

theorem globexDenied_allows : ∃ s p j result, globexDenied.records = .ok ⟨.select s, p, j⟩ ∧
    s.run Sample.database = .ok result ∧ ∀ cells ∈ result,
      ∃ row ∈ Sample.database.rows s.entity.table, s.entity.cells row = cells ∧
        globexDenied.Allows Sample.database s.entity row := by
  have hrules : ∀ rule ∈ globexDenied.rules, rule.HasPlainKeysAndData := by
    intro rule hrule
    rcases List.mem_pair.mp hrule with rfl | rfl <;> exact Sample.hasPlainKeysAndData_readRule rfl
  obtain ⟨result, hrun, _, _, hallows⟩ := returned_allows_iff (q := globexDenied)
    Sample.wellFormed_schema rfl (by decide) hrules rfl rfl Sample.database
  refine ⟨_, _, _, result, rfl, hrun, hallows ?_⟩
  intro rule hrule hdeny
  rcases List.mem_pair.mp hrule with rfl | rfl
  · exact isSingle_organization _ trivial
  · cases hdeny

/-- The first post is readable, but later no post with a comment "Nice". -/
def niceDenied : Query := Sample.reading "Post"
  [Sample.readRule false "Post" (.association "comments" (.literal "body" (.str "Nice") .nil) .nil),
    Sample.readRule true "Post" (.literal "id" (.int 1) .nil)]

theorem evaded_post : ∃ s p j result, niceDenied.records = .ok ⟨.select s, p, j⟩ ∧
    s.run Sample.database = .ok result ∧
      ¬ ∀ cells ∈ result, ∃ row ∈ Sample.database.rows s.entity.table,
        s.entity.cells row = cells ∧ niceDenied.Allows Sample.database s.entity row := by
  refine ⟨_, _, _, [[.int 1, .str "Public Post", .bool true, .int 1]], rfl, rfl, fun h => ?_⟩
  obtain ⟨row, hrow, hcells, hallows⟩ := h _ List.mem_cons_self
  obtain rfl : row = (Sample.database.rows "posts").head (by decide) := by
    change row ∈ [_, _, _, _] at hrow
    simp only [List.mem_cons, List.not_mem_nil, or_false] at hrow
    rcases hrow with rfl | rfl | rfl | rfl
    · rfl
    all_goals cases hcells
  rcases LatestAllows.cons_iff.mp hallows with ⟨_, hallow⟩ | ⟨hnot, _⟩
  · cases hallow
  · exact hnot ⟨⟨Sample.comment, _, ⟨_, ⟨rfl, rfl⟩, List.mem_cons_self, rfl⟩,
      ⟨_, _, rfl, rfl, rfl⟩, trivial⟩, trivial⟩

section Kept

variable (hproxy : q.proxy? = none) (hne : q.rules ≠ [])
  (hrules : ∀ rule ∈ q.rules, rule.HasPlainKeysAndData) {predicate : Option Expr}
  {joins : Option JoinList} (hrecords : q.records = .ok ⟨.select s, predicate, joins⟩)
  {values : List Scalar} (hpassed : s.passed = .ok values)
include hproxy hne hrules hrecords hpassed

/-- From a row that is allowed some choice reaches rows by which it is allowed, if every
association leads from every row to some row. -/
theorem exists_reachedBy
    (htotal : ∀ rule ∈ q.rules, rule.condition.associations.IsTotal q.schema db s.entity)
    (hrow : row ∈ db.rows s.entity.table) (h : q.Allows db s.entity row) :
    ∃ choice, choice s.entity.table = row ∧ q.ReachedBy db s.entity choice ∧
      q.AllowsBy db s.entity choice := by
  obtain ⟨p, hmerged⟩ := exists_isMerged hproxy hne hrules hrecords hpassed
  obtain ⟨later, rule, earlier, hlist, hlater, hholds, hallow⟩ := h
  have hrule : rule ∈ q.rules := by simp [hlist]
  obtain ⟨tree, hmapping, htree⟩ := hrules rule hrule
  have hown := hmerged.hasOwnTables rule hrule
  have hleads := hmerged.mem_of_leads rule hrule
  rw [hmapping] at hholds hown hleads
  obtain ⟨first, hfirst, hholds⟩ := ConditionTree.HoldsOf.exists_choice htree hown hholds
  obtain ⟨hmem, horder⟩ := Select.distinctJoins_spec hmerged.hasJoin hmerged.inOrder
  obtain ⟨hroot, hdistinct⟩ := List.nodup_cons.mp hmerged.nodup
  -- the rows chosen for the deciding rule are kept, the others are chosen anew
  have hkept : ∀ source r target, Join.related source r target ∈ s.distinctJoins →
      tree.associations.Touches q.schema s.entity target.table →
        tree.associations.Touches q.schema s.entity source.table ∧
          (Join.related source r target).IsMet db first := by
    intro source r target hjoin htouches
    rcases htouches with htable | ⟨path, join, hpath, htable⟩
    · exact (hroot (htable ▸ List.mem_map_of_mem hjoin)).elim
    · obtain rfl := List.inj_on_of_nodup_map hdistinct
        ((hmem join).mpr (hleads path join hpath)) hjoin htable
      exact ⟨hpath.touches_source, hholds.isMet hpath⟩
  obtain ⟨choice, hagree, hmet⟩ := Join.exists_continuation horder hmerged.nodup
    (by simpa [hfirst] using hrow) (fun join hjoin => by
      obtain ⟨rule, hrule, path, hpath⟩ := (hmerged.mem_joins join).mp ((hmem join).mp hjoin)
      exact (htotal rule hrule).of_leads hpath) hkept
  have hchoice : choice s.entity.table = row :=
    (hagree _ (Or.inl List.mem_cons_self)).trans hfirst
  have hfollowed : ∀ rule ∈ q.rules,
      rule.condition.associations.FollowedBy q.schema db choice s.entity :=
    (hmerged.forall_isMet_iff (isProxy_eq_false hproxy) hrules).mp
      fun join hjoin => hmet join ((hmem join).mpr hjoin)
  refine ⟨choice, hchoice, ⟨hchoice.symm ▸ hrow, hfollowed⟩, later, rule, earlier, hlist,
    fun r hr hby => ?_, ?_, hallow⟩
  · exact hlater r hr (hchoice ▸ Condition.HoldsBy.holdsOf hby)
  · dsimp only
    rw [hmapping]
    exact hholds.congr fun table htable => (hagree table (Or.inr htable)).symm

variable (hs : q.schema.WellFormed)
include hs

/-- A row that the latest rule holding of it allows is returned if some choice follows all
associations from it so that it is still allowed. All such rows are returned where every
association leads from every row to some row. -/
theorem allowed_returned_iff (db : Database) :
    ∃ result, s.run db = .ok result ∧
      ((∀ row ∈ db.rows s.entity.table, q.Allows db s.entity row →
          s.entity.cells row ∈ result) ↔
        ∀ row ∈ db.rows s.entity.table, q.Allows db s.entity row →
          ∃ choice, q.ReachedBy db s.entity choice ∧ q.AllowsBy db s.entity choice ∧
            s.entity.cells (choice s.entity.table) = s.entity.cells row) ∧
      ((∀ rule ∈ q.rules, rule.condition.associations.IsTotal q.schema db s.entity) →
        ∀ row ∈ db.rows s.entity.table, q.Allows db s.entity row →
          s.entity.cells row ∈ result) := by
  obtain ⟨result, hrun, hresult⟩ :=
    exists_merged_run db hs hproxy hne hrules hrecords hpassed
  refine ⟨result, hrun, ?_, fun htotal row hrow hallows => ?_⟩
  · exact forall₃_congr fun row _ _ => hresult _
  · obtain ⟨choice, rfl, hreached, hby⟩ :=
      exists_reachedBy hproxy hne hrules hrecords hpassed htotal hrow hallows
    exact (hresult _).mpr ⟨choice, hreached, hby, rfl⟩

end Kept

/-- The comments on published posts are readable, and later all comments. -/
def everyComment : Query := Sample.reading "Comment"
  [Sample.readRule true "Comment" .nil,
    Sample.readRule true "Comment"
      (.association "post" (.literal "is_published" (.bool true) .nil) .nil)]

theorem everyComment_returned : ∃ s p j result, everyComment.records = .ok ⟨.select s, p, j⟩ ∧
    s.run Sample.database = .ok result ∧ ∀ row ∈ Sample.database.rows s.entity.table,
      everyComment.Allows Sample.database s.entity row → s.entity.cells row ∈ result := by
  have hrules : ∀ rule ∈ everyComment.rules, rule.HasPlainKeysAndData := by
    intro rule hrule
    rcases List.mem_pair.mp hrule with rfl | rfl <;> exact Sample.hasPlainKeysAndData_readRule rfl
  have hpost : ∀ row ∈ Sample.database.rows "comments",
      ∃ related ∈ Sample.database.rows "posts",
        Database.linked (related "id") (row "post_id") = true := by decide +kernel
  obtain ⟨result, hrun, _, hreturned⟩ := allowed_returned_iff (q := everyComment)
    rfl (by decide) hrules rfl rfl Sample.wellFormed_schema Sample.database
  refine ⟨_, _, _, result, rfl, hrun, hreturned ?_⟩
  intro rule hrule
  rcases List.mem_pair.mp hrule with rfl | rfl
  · trivial
  · refine ⟨fun row hrow => ?_, fun _ _ _ => trivial, trivial⟩
    obtain ⟨related, hrelated, hlink⟩ := hpost row hrow
    exact ⟨Sample.post, related, _, ⟨rfl, rfl⟩, hrelated, hlink⟩

/-- The users of one organization are readable, and later all users. -/
def everyUser : Query := Sample.reading "User"
  [Sample.readRule true "User" .nil,
    Sample.readRule true "User"
      (.association "organization" (.literal "name" (.str "Globex") .nil) .nil)]

theorem lost_user : ∃ s p j result, everyUser.records = .ok ⟨.select s, p, j⟩ ∧
    s.run Sample.database = .ok result ∧
      ¬ ∀ row ∈ Sample.database.rows s.entity.table,
        everyUser.Allows Sample.database s.entity row → s.entity.cells row ∈ result := by
  refine ⟨_, _, _, _, rfl, rfl, fun h => ?_⟩
  have hcarol := h _ (List.mem_cons_of_mem _ (List.mem_cons_of_mem _ List.mem_cons_self))
    (LatestAllows.cons_iff.mpr (Or.inl ⟨trivial, rfl⟩))
  revert hcarol
  decide +kernel

end Query

end RowPolicy
