import RowPolicy.Proofs.Relevance

/-!
# What an alias covers

An action covers those that it was made to stand for, directly or through others: a rule for one
of these may as well be declared for the action itself and is then relevant wherever it was
before. Only the action that stands for all actions cannot be replaced in this way. A rule for an
action that was made to stand for it is relevant for no more actions than can be reached.
-/

namespace RowPolicy

open Relation (ReflTransGen TransGen)

/-- The same rule for a single action. -/
def Rule.forAction (rule : Rule) (action : String) : Rule := { rule with actions := [action] }

namespace Policy

variable {s : Schema} {p : Policy} {rule : Rule} {a b action : String} {asked : Option Subject}
  {earlier : List Rule}

/-- A rule for one action is relevant for what can be reached from it, or for every action if it
is for all, on what the rule is about. -/
theorem isRelevant_forAction : p.isRelevant s (.str action) asked (rule.forAction a) = true ↔
    (a = manage ∨ p.aliases.Reaches a action) ∧ rule.coversSubject s asked = true := by
  simp only [isRelevant, Rule.coversAction, Rule.managesAll, Rule.forAction, Rule.coversSubject,
    Bool.and_eq_true, Bool.or_eq_true, List.contains_iff_mem, List.mem_singleton,
    Aliases.mem_expand, exists_eq_left, eq_comm (a := manage)]

/-- A further rule stands before the ones that were relevant, if it is relevant itself. -/
theorem relevant_add : (p.add rule).relevant s (.str action) asked =
    .ok (if p.isRelevant s (.str action) asked rule
      then rule :: p.rules.reverse.filter (p.isRelevant s (.str action) asked)
      else p.rules.reverse.filter (p.isRelevant s (.str action) asked)) := by
  have hsame : (p.add rule).isRelevant s (.str action) asked =
      p.isRelevant s (.str action) asked := rfl
  have hrules : (p.add rule).rules.reverse = rule :: p.rules.reverse := List.reverse_concat ..
  rw [relevant, canLookUp, Value.isKey, Bool.true_or, if_pos rfl, hrules, hsame,
    List.filter_cons]

/-- A further rule is among the relevant ones exactly if it is relevant. -/
theorem relevant_add_eq_cons (h : p.relevant s (.str action) asked = .ok earlier) :
    (p.add rule).relevant s (.str action) asked = .ok (rule :: earlier) ↔
      p.isRelevant s (.str action) asked rule = true := by
  obtain rfl : p.rules.reverse.filter (p.isRelevant s (.str action) asked) = earlier := by
    rw [relevant, canLookUp, Value.isKey, Bool.true_or, if_pos rfl] at h
    exact Except.ok.inj h
  rw [relevant_add]
  split
  next hrule => exact iff_of_true rfl hrule
  next hrule => exact iff_of_false (fun heq => List.cons_ne_self _ _ (Except.ok.inj heq).symm) hrule

/-- Through the aliases of a script an action reaches what those that it stands for reach. -/
theorem reaches_after {script : List PolicyChange} :
    (Policy.after script).aliases.Reaches a b ↔ ReflTransGen (PolicyChange.Links script) a b := by
  have hlinks : (Policy.after script).aliases.StandsFor = PolicyChange.Links script :=
    funext fun _ => funext fun _ => propext PolicyChange.standsFor_after
  rw [Aliases.Reaches, hlinks]

/-- By the aliases of a script let an action stand for another one, directly or through others.
Wherever a rule for the other one is relevant, the same rule for the action is relevant too, unless
the other one is the action that stands for all. For that one it is so exactly where the action
stands for all itself or for the action asked for. -/
theorem alias_covers_iff (s : Schema) (script : List PolicyChange) (rule : Rule)
    (asked : Option Subject) (halias : TransGen (PolicyChange.Links script) b a)
    (hearlier : (Policy.after script).relevant s (.str action) asked = .ok earlier)
    (hrelevant : ((Policy.after script).add (rule.forAction a)).relevant s (.str action) asked =
      .ok (rule.forAction a :: earlier)) :
    ((Policy.after script).add (rule.forAction b)).relevant s (.str action) asked =
        .ok (rule.forAction b :: earlier) ↔
      (a = manage → b = manage ∨ ReflTransGen (PolicyChange.Links script) b action) := by
  rw [relevant_add_eq_cons hearlier, isRelevant_forAction, reaches_after] at hrelevant ⊢
  obtain ⟨haction, hsubject⟩ := hrelevant
  rw [and_iff_left hsubject]
  refine ⟨fun hb _ => hb, fun hmanage => ?_⟩
  rcases haction with hall | hreached
  · exact hmanage hall
  · exact Or.inr (halias.to_reflTransGen.trans hreached)

/-- Posts may be put away. -/
def archivingPosts : Rule := ⟨true, ["archive"], [.kind "Post"], .mapping .nil⟩

/-- To edit is also to archive, and an administrator may do all that can be done. -/
def archiving : List PolicyChange :=
  [.addAlias ["archive"] "edit", .addAlias ["manage"] "admin"]

theorem archiving_covers :
    ((Policy.after archiving).add (archivingPosts.forAction "update")).relevant Sample.schema
        (.str "archive") (some (.kind "Post")) = .ok [archivingPosts.forAction "update"] := by
  have hedit : PolicyChange.Links archiving "update" "edit" :=
    Or.inl (List.mem_singleton_self "edit")
  have harchive : PolicyChange.Links archiving "edit" "archive" :=
    Or.inr ⟨["archive"], List.mem_cons_self, List.mem_singleton_self _⟩
  have hnone : (Policy.after archiving).relevant Sample.schema (.str "archive")
      (some (.kind "Post")) = .ok [] := rfl
  have hrelevant : (Policy.after archiving).isRelevant Sample.schema (.str "archive")
      (some (.kind "Post")) (archivingPosts.forAction "archive") = true :=
    isRelevant_forAction.mpr ⟨Or.inr .refl, rfl⟩
  exact (alias_covers_iff Sample.schema archiving archivingPosts _
    (.tail (.single hedit) harchive) hnone ((relevant_add_eq_cons hnone).mpr hrelevant)).mpr
    fun hmanage => absurd hmanage (by decide)

/-- A rule for all actions is relevant for reading; the same rule for the action that was made to
stand for all is not. -/
theorem admin_uncovered : PolicyChange.Links archiving "admin" manage ∧
    ((Policy.after archiving).add (archivingPosts.forAction manage)).relevant Sample.schema
        (.str "read") (some (.kind "Post")) = .ok [archivingPosts.forAction manage] ∧
    ((Policy.after archiving).add (archivingPosts.forAction "admin")).relevant Sample.schema
        (.str "read") (some (.kind "Post")) = .ok [] := by
  have hnone : (Policy.after archiving).relevant Sample.schema (.str "read")
      (some (.kind "Post")) = .ok [] := rfl
  have hmanage : PolicyChange.Links archiving "admin" manage :=
    Or.inr ⟨["manage"], by simp [archiving], List.mem_singleton_self _⟩
  -- what is reached from there stands for nothing further
  have hstays : ∀ b, ReflTransGen (PolicyChange.Links archiving) "admin" b →
      b = "admin" ∨ b = manage := by
    intro b hreached
    induction hreached with
    | refl => exact Or.inl rfl
    | tail _ hlink ih =>
        rcases ih with rfl | rfl <;> rcases hlink with hstandard | ⟨actions, hadded, hmem⟩
        · cases hstandard
        · obtain rfl : actions = ["manage"] := by simpa [archiving] using hadded
          exact Or.inr (List.mem_singleton.mp hmem)
        · cases hstandard
        · simp [archiving, manage] at hadded
  have hirrelevant : (Policy.after archiving).isRelevant Sample.schema (.str "read")
      (some (.kind "Post")) (archivingPosts.forAction "admin") = false := by
    rw [← Bool.not_eq_true, isRelevant_forAction, reaches_after]
    rintro ⟨hall | hreached, _⟩
    · exact absurd hall (by decide)
    · exact absurd (hstays "read" hreached) (by decide)
  refine ⟨hmanage, ?_, ?_⟩
  · exact (relevant_add_eq_cons hnone).mpr (isRelevant_forAction.mpr ⟨Or.inl rfl, rfl⟩)
  · rw [relevant_add, hirrelevant]
    exact hnone

end Policy

end RowPolicy
