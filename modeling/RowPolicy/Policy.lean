import RowPolicy.Rule

/-!
# Policies

A policy is a list of rules in the order of declaration, together with the actions
that each action stands for besides itself. An action covers the actions it stands
for, directly or through others, whatever the order in which that was declared.
-/

namespace RowPolicy

/-- The actions that each action stands for. -/
abbrev Aliases := Dict String (List String)

namespace Aliases

/-- The aliases that every policy starts with. -/
def standard : Aliases :=
  Dict.ofList [("read", ["index", "show"]), ("create", ["new"]), ("update", ["edit"])]

/-- The actions that an action stands for directly. -/
def of (aliases : Aliases) (action : String) : List String := (aliases.get? action).getD []

/-- Make `name` stand for further actions. -/
def add (aliases : Aliases) (actions : List String) (name : String) : Aliases :=
  aliases.insert name (aliases.of name ++ actions).eraseDups

/-- The number of actions with aliases that are not among `seen`. -/
def unseen (aliases : Aliases) (seen : List String) : Nat :=
  aliases.keys.countP fun action => !seen.contains action

/-- Seeing one more action leaves no more actions unseen. -/
theorem unseen_cons_le (aliases : Aliases) (action : String) (seen : List String) :
    aliases.unseen (action :: seen) ≤ aliases.unseen seen := by
  refine List.countP_mono_left fun key _ h => ?_
  simp_all

/-- Seeing an action with aliases for the first time leaves fewer actions unseen. -/
theorem unseen_cons_lt (aliases : Aliases) {action : String} {seen : List String}
    (hkey : action ∈ aliases.keys) (hnew : action ∉ seen) :
    aliases.unseen (action :: seen) < aliases.unseen seen := by
  obtain ⟨before, after, hkeys⟩ := List.append_of_mem hkey
  unfold unseen
  have hle : ∀ keys : List String,
      keys.countP (fun a => !(action :: seen).contains a) ≤
        keys.countP (fun a => !seen.contains a) := fun keys =>
    List.countP_mono_left fun key _ h => by simp_all
  have hbefore := hle before
  have hafter := hle after
  rw [hkeys]
  simp only [List.countP_append, List.countP_cons]
  simp [hnew] at hbefore hafter ⊢
  omega

/-- An action without aliases stands for no other. -/
theorem of_eq_nil (aliases : Aliases) {action : String} (h : action ∉ aliases.keys) :
    aliases.of action = [] := by
  simp [of, Dict.get?_eq_none.2 h]

/-- The actions reached from the pending ones, besides those already seen. -/
def expandFrom (aliases : Aliases) (seen : List String) : List String → List String
  | [] => seen
  | action :: rest =>
      if action ∈ seen then aliases.expandFrom seen rest
      else aliases.expandFrom (action :: seen) (aliases.of action ++ rest)
termination_by pending => (aliases.unseen seen, pending.length)
decreasing_by
  · simp [Prod.lex_def]
  next hnew =>
    by_cases hkey : action ∈ aliases.keys
    · simp [Prod.lex_def, aliases.unseen_cons_lt hkey hnew]
    · have := aliases.unseen_cons_le action seen
      simp [Prod.lex_def, aliases.of_eq_nil hkey]
      omega

/-- The actions that some actions stand for, themselves included. -/
def expand (aliases : Aliases) (actions : List String) : List String :=
  aliases.expandFrom [] actions

end Aliases

/-- The rules for one actor. -/
structure Policy where
  /-- The rules, in the order of declaration. -/
  rules : List Rule
  aliases : Aliases

namespace Policy

/-- The policy without rules. -/
def empty : Policy := ⟨[], .standard⟩

instance : EmptyCollection Policy := ⟨empty⟩
instance : Inhabited Policy := ⟨empty⟩

/-- Declare one more rule. -/
def add (p : Policy) (rule : Rule) : Policy := { p with rules := p.rules ++ [rule] }

/-- Make the action `name` stand for further actions. -/
def addAlias (p : Policy) (actions : List String) (name : String) : Policy :=
  { p with aliases := p.aliases.add actions name }

/-- Forget all rules, but no alias. -/
def clear (p : Policy) : Policy := { p with rules := [] }

/-- Whether a rule covers an action on a subject. -/
def isRelevant (s : Schema) (p : Policy) (action : Value) (subject : Option Subject)
    (rule : Rule) : Bool :=
  rule.coversAction (p.aliases.expand rule.actions) action && rule.coversSubject s subject

/-- Whether an action can be looked up in every rule: it is a key, or no rule is for
certain actions only. -/
def canLookUp (p : Policy) (action : Value) : Bool :=
  action.isKey || p.rules.all Rule.managesAll

/-- The rules that cover an action on a subject, latest first. -/
def relevant (s : Schema) (p : Policy) (action : Value) (subject : Option Subject) :
    Except Fault (List Rule) :=
  if p.canLookUp action then .ok (p.rules.reverse.filter (p.isRelevant s action subject))
  else .error .notKey

/-- The places of these rules in the order of declaration. -/
def relevantPlaces (s : Schema) (p : Policy) (action : Value) (subject : Option Subject) :
    Except Fault (List Nat) :=
  if p.canLookUp action then
    .ok ((p.rules.zipIdx.reverse.filter fun entry =>
      p.isRelevant s action subject entry.1).map Prod.snd)
  else .error .notKey

end Policy

end RowPolicy
