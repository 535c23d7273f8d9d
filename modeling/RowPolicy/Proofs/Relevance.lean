import Mathlib.Data.List.Induction
import RowPolicy.Proofs.Expansion
import RowPolicy.Sample.Schema

/-!
# Which rules are relevant

A policy comes about by a script of changes: rules are declared, actions are made to stand for
others, and all rules may be forgotten. The rules relevant for an action on a kind of entity can
be read off the script, whatever the order of its aliases and wherever they stand in it.
-/

namespace RowPolicy

/-- One change of a policy. -/
inductive PolicyChange where
  /-- A rule is declared with the condition that a value stands for. -/
  | declare (allow : Bool) (actions : List String) (subjects : List Subject) (given : Value)
  /-- A rule that was built before is added. -/
  | add (rule : Rule)
  /-- The action `name` is made to stand for further ones. -/
  | addAlias (actions : List String) (name : String)
  /-- All rules are forgotten. -/
  | clear

namespace PolicyChange

/-- The policy after a change; a rule whose condition is refused leaves it as it was. -/
def applyTo (p : Policy) : PolicyChange → Policy
  | declare allow actions subjects given =>
      match Rule.build allow actions subjects given with
      | .ok rule => p.add rule
      | .error _ => p
  | add rule => p.add rule
  | addAlias actions name => p.addAlias actions name
  | clear => p.clear

/-- The rule that a change adds, if any. -/
def rule? : PolicyChange → Option Rule
  | declare allow actions subjects given => (Rule.build allow actions subjects given).toOption
  | add rule => some rule
  | addAlias _ _ | clear => none

/-- Whether a change forgets the rules. -/
def isClear : PolicyChange → Bool
  | clear => true
  | declare _ _ _ _ | add _ | addAlias _ _ => false

/-- Whether a change concerns aliases. -/
def isAlias : PolicyChange → Bool
  | addAlias _ _ => true
  | declare _ _ _ _ | add _ | clear => false

variable {p : Policy} {change : PolicyChange} {a b : String}

/-- The rules after a change are none if it forgets them, and else one more at most. -/
theorem rules_applyTo :
    (change.applyTo p).rules = if change.isClear then [] else p.rules ++ change.rule?.toList := by
  cases change with
  | declare allow actions subjects given =>
      cases hbuild : Rule.build allow actions subjects given <;>
        simp [applyTo, rule?, hbuild, isClear, Policy.add, Except.toOption]
  | add rule => rfl
  | addAlias actions name => simp [applyTo, isClear, rule?, Policy.addAlias]
  | clear => rfl

/-- A change adds the edges of its alias, and takes none away. -/
theorem standsFor_applyTo : (change.applyTo p).aliases.StandsFor a b ↔
    p.aliases.StandsFor a b ∨ ∃ actions, change = addAlias actions a ∧ b ∈ actions := by
  cases change with
  | declare allow actions subjects given =>
      cases hbuild : Rule.build allow actions subjects given <;>
        simp [applyTo, hbuild, Policy.add]
  | add rule => simp [applyTo, Policy.add]
  | addAlias actions name =>
      rw [applyTo, Policy.addAlias, Aliases.standsFor_add]
      simp [eq_comm, and_assoc]
  | clear => simp [applyTo, Policy.clear]

end PolicyChange

/-- The policy after a script. -/
def Policy.after (script : List PolicyChange) : Policy :=
  script.foldl (fun p change => change.applyTo p) ∅

namespace PolicyChange

variable {script other : List PolicyChange} {change : PolicyChange} {a b : String}

/-- The rules added since the last time that rules were forgotten, latest first. -/
def added (script : List PolicyChange) : List Rule :=
  (script.reverse.takeWhile fun change => !change.isClear).filterMap rule?

/-- Whether an action stands for another one by the aliases that every policy starts with, or by
some alias of a script. -/
def Links (script : List PolicyChange) (a b : String) : Prop :=
  Aliases.standard.StandsFor a b ∨ ∃ actions, addAlias actions a ∈ script ∧ b ∈ actions

theorem after_append_singleton :
    Policy.after (script ++ [change]) = change.applyTo (Policy.after script) := by
  rw [Policy.after, List.foldl_append]
  rfl

theorem added_append_singleton : added (script ++ [change]) =
    if change.isClear then [] else change.rule?.toList ++ added script := by
  unfold added
  rw [List.reverse_append, List.reverse_singleton, List.singleton_append, List.takeWhile_cons]
  cases change.isClear with
  | true => rfl
  | false => cases hrule : change.rule? <;> simp [hrule]

/-- The rules of a policy are those added since they were last forgotten. -/
theorem reverse_rules_after : (Policy.after script).rules.reverse = added script := by
  induction script using List.reverseRecOn with
  | nil => rfl
  | append_singleton script change ih =>
      rw [after_append_singleton, rules_applyTo, added_append_singleton]
      split
      · rfl
      · rw [List.reverse_append, ih]
        cases change.rule? <;> rfl

/-- The aliases of a policy are those of the whole script, besides the standard ones. -/
theorem standsFor_after : (Policy.after script).aliases.StandsFor a b ↔ Links script a b := by
  induction script using List.reverseRecOn with
  | nil =>
      simp only [Links, List.not_mem_nil, false_and, exists_false, or_false]
      rfl
  | append_singleton script change ih =>
      rw [after_append_singleton, standsFor_applyTo, ih, Links, Links, or_assoc]
      refine or_congr_right ?_
      simp only [List.mem_append, List.mem_singleton]
      constructor
      · rintro (⟨actions, h, hb⟩ | ⟨actions, rfl, hb⟩)
        · exact ⟨actions, Or.inl h, hb⟩
        · exact ⟨actions, Or.inr rfl, hb⟩
      · rintro ⟨actions, h | h, hb⟩
        · exact Or.inl ⟨actions, h, hb⟩
        · exact Or.inr ⟨actions, h.symm, hb⟩

/-- Aliases add no rule, wherever they stand. -/
theorem added_filter : added (script.filter fun change => !change.isAlias) = added script := by
  induction script using List.reverseRecOn with
  | nil => rfl
  | append_singleton script change ih =>
      rw [List.filter_append, added_append_singleton, ← ih]
      cases change with
      | addAlias actions name => simp [isAlias, isClear, rule?]
      | _ => exact added_append_singleton

end PolicyChange

/-- The kinds above a kind. -/
def Schema.above (s : Schema) (kind : String) : List String :=
  (Entries.get? kind s.ancestors).getD []

/-- Whether a rule is about an action on a kind: it is for every action or for one from which the
action can be reached, and it is on everything, on the kind or on one above it. -/
def Rule.IsAbout (s : Schema) (links : String → String → Prop) (action kind : String)
    (rule : Rule) : Prop :=
  (manage ∈ rule.actions ∨ ∃ a ∈ rule.actions, Relation.ReflTransGen links a action) ∧
    ∃ subject ∈ rule.subjects, subject = .label "all" ∨ subject = .kind kind ∨
      ∃ above ∈ s.above kind, subject = .kind above

namespace Policy

variable {s : Schema} {p : Policy} {rule : Rule} {action kind : String}

theorem covers_iff {subject : Subject} : subject.covers s (some (.kind kind)) = true ↔
    subject = .label "all" ∨ subject = .kind kind ∨
      ∃ above ∈ s.above kind, subject = .kind above := by
  cases subject with
  | kind name =>
      simp only [Subject.covers, Subject.everything, Schema.isBelow, Bool.or_eq_true, beq_iff_eq,
        List.contains_iff_mem, Option.some.injEq, Subject.kind.injEq, reduceCtorEq, false_or]
      constructor
      · rintro (h | h | h)
        · exact Or.inl h
        · exact Or.inl h.symm
        · exact Or.inr ⟨name, h, rfl⟩
      · rintro (h | ⟨_, h, rfl⟩)
        · exact Or.inl h
        · exact Or.inr (Or.inr h)
  | label text => simp [Subject.covers, Subject.everything]

/-- The rules that a policy finds relevant are those that are about the action and the kind by
its aliases. -/
theorem isRelevant_iff : p.isRelevant s (.str action) (some (.kind kind)) rule = true ↔
    rule.IsAbout s p.aliases.StandsFor action kind := by
  simp only [isRelevant, Rule.coversAction, Rule.managesAll, Rule.coversSubject, Bool.and_eq_true,
    Bool.or_eq_true, List.contains_iff_mem, List.any_eq_true, covers_iff, Aliases.mem_expand]
  exact Iff.rfl

open Classical in
/-- After a script the rules relevant for an action on a kind are those added since rules were
last forgotten that are about it, latest first, by all aliases of the script. Scripts with the
same aliases, in any order and anywhere between the same other changes, agree on them. -/
theorem relevant_after (s : Schema) (script : List PolicyChange) (action kind : String) :
    (Policy.after script).relevant s (.str action) (some (.kind kind)) =
        .ok ((PolicyChange.added script).filter fun rule =>
          decide (rule.IsAbout s (PolicyChange.Links script) action kind)) ∧
      ∀ other : List PolicyChange,
        other.filter (fun change => !change.isAlias) =
            script.filter (fun change => !change.isAlias) →
        (∀ actions name,
          .addAlias actions name ∈ other ↔ .addAlias actions name ∈ script) →
        (Policy.after other).relevant s (.str action) (some (.kind kind)) =
          (Policy.after script).relevant s (.str action) (some (.kind kind)) := by
  have hrelevant : ∀ script, (Policy.after script).relevant s (.str action) (some (.kind kind)) =
      .ok ((PolicyChange.added script).filter fun rule =>
        decide (rule.IsAbout s (PolicyChange.Links script) action kind)) := by
    intro script
    have hlinks : (Policy.after script).aliases.StandsFor = PolicyChange.Links script :=
      funext fun _ => funext fun _ => propext PolicyChange.standsFor_after
    rw [relevant, canLookUp, Value.isKey, Bool.true_or, if_pos rfl,
      PolicyChange.reverse_rules_after]
    refine congrArg Except.ok (List.filter_congr fun rule _ => ?_)
    rw [Bool.eq_iff_iff, isRelevant_iff, decide_eq_true_iff, hlinks]
  refine ⟨hrelevant script, fun other hothers haliases => ?_⟩
  have hadded : PolicyChange.added other = PolicyChange.added script := by
    rw [← PolicyChange.added_filter, hothers, PolicyChange.added_filter]
  have hlinks : PolicyChange.Links other = PolicyChange.Links script := by
    funext a b
    simp only [PolicyChange.Links, haliases]
  rw [hrelevant, hrelevant, hadded, hlinks]

/-- The rule that content may be updated. -/
def updatingContent : Rule := ⟨true, ["update"], [.kind "Content"], .mapping .nil⟩

/-- Content may be updated, but a further rule is refused. -/
def contentRules : List PolicyChange :=
  [.clear, .declare true ["update"] [.kind "Content"] .null,
    .declare false ["publish"] [.label "all"] (.int 1)]

/-- To edit is also to publish, and to publish is in turn to update in any way. -/
def publishing : List PolicyChange :=
  [.addAlias ["publish"] "edit", .addAlias ["update"] "publish"]

theorem publishing_relevant :
    (Policy.after (contentRules ++ publishing)).relevant Sample.schema (.str "publish")
        (some (.kind "Article")) = .ok [updatingContent] ∧
      (Policy.after (publishing.reverse ++ contentRules)).relevant Sample.schema
        (.str "publish") (some (.kind "Article")) = .ok [updatingContent] := by
  obtain ⟨hlate, hother⟩ :=
    relevant_after Sample.schema (contentRules ++ publishing) "publish" "Article"
  have hupdate : PolicyChange.Links (contentRules ++ publishing) "update" "edit" :=
    Or.inl (List.mem_singleton_self "edit")
  have hedit : PolicyChange.Links (contentRules ++ publishing) "edit" "publish" :=
    Or.inr ⟨["publish"], by simp [publishing], List.mem_singleton_self _⟩
  have habout : updatingContent.IsAbout Sample.schema
      (PolicyChange.Links (contentRules ++ publishing)) "publish" "Article" :=
    ⟨Or.inr ⟨"update", List.mem_singleton_self _, .tail (.single hupdate) hedit⟩,
      .kind "Content", List.mem_singleton_self _, Or.inr (Or.inr ⟨"Content", by decide, rfl⟩)⟩
  have hadded : PolicyChange.added (contentRules ++ publishing) = [updatingContent] := rfl
  rw [hadded, List.filter_eq_self.mpr (by simpa using habout)] at hlate
  have hearly := hother (publishing.reverse ++ contentRules) rfl
    (by simp [publishing, contentRules, or_comm])
  exact ⟨hlate, hearly.trans hlate⟩

end Policy

end RowPolicy
