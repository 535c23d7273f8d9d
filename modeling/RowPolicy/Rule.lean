import RowPolicy.Condition
import RowPolicy.Schema
import RowPolicy.Text.Quoted
import RowPolicy.Value.Order

/-!
# Rules

A rule allows or denies some actions on some subjects, for the rows of which its
condition holds. A subject is a kind of entity, which covers the kinds below it, or a
label. The label `all` covers every subject and the action `manage` every action.
-/

namespace RowPolicy

/-- What a rule is about. -/
inductive Subject where
  /-- A kind of entity. -/
  | kind (name : String)
  /-- A plain text. -/
  | label (text : String)
  deriving DecidableEq, Repr

namespace Subject

/-- The subject that stands for all subjects. -/
def everything : Subject := label "all"

/-- The name of a subject. -/
def name : Subject → String
  | kind name => name
  | label text => text

/-- Whether a rule on `candidate` covers a subject. A query for several subjects at
once is no subject, so only `everything` covers it. -/
def covers (s : Schema) (candidate : Subject) (asked : Option Subject) : Bool :=
  candidate == everything || some candidate == asked ||
    match candidate, asked with
    | kind above, some (kind name) => s.isBelow name above
    | _, _ => false

end Subject

/-- The action that stands for all actions. -/
def manage : String := "manage"

/-- A rule. -/
structure Rule where
  /-- Whether the rule allows or denies. -/
  allow : Bool
  actions : List String
  subjects : List Subject
  condition : Condition

namespace Rule

/-- The rule with the condition that a value stands for. -/
def build (allow : Bool) (actions : List String) (subjects : List Subject) (given : Value) :
    Except ConditionError Rule := do
  return ⟨allow, actions, subjects, ← given.resolve⟩

/-- The word for what a rule does. -/
def verb (r : Rule) : String := if r.allow then "can" else "cannot"

/-- The text of a rule. -/
def text (r : Rule) : String :=
  "<Rule " ++ r.verb ++ " " ++ Text.quotedList r.actions ++ " ["
    ++ Text.commaSeparated (r.subjects.map Subject.name) ++ "] " ++ r.condition.kind.name ++ ">"

/-- The texts of some rules as a list. -/
def listText (rules : List Rule) : String :=
  "[" ++ Text.commaSeparated (rules.map text) ++ "]"

/-- The subject on which the condition of a rule is resolved. -/
def primarySubject? (r : Rule) : Option Subject := r.subjects.head?

/-- Whether a rule covers every action. -/
def managesAll (r : Rule) : Bool := r.actions.contains manage

/-- Whether a rule covers an action, given the actions that its own stand for. What is
no text is covered by rules for every action only. -/
def coversAction (r : Rule) (expanded : List String) (action : Value) : Bool :=
  r.managesAll ||
    match action with
    | .str name => expanded.contains name
    | _ => false

/-- Whether a rule covers an action that is looked up in any value. -/
def coversActionIn (r : Rule) (expanded action : Value) : Except Fault Bool :=
  if r.managesAll then .ok true else action.elementOf expanded

/-- Whether a rule covers a subject. -/
def coversSubject (s : Schema) (r : Rule) (asked : Option Subject) : Bool :=
  r.subjects.any fun candidate => candidate.covers s asked

end Rule

namespace JoinList

/-- The joins that the conditions of some rules need, if any. -/
def ofRules (rules : List Rule) : Option JoinList :=
  match JoinTree.mergeAll (rules.map (·.condition.associations)) with
  | .nil => none
  | tree => some (ofTree tree)

end JoinList

end RowPolicy
