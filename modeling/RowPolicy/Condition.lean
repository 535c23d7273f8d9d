import RowPolicy.Condition.Tree

/-!
# Conditions of rules

A rule carries one of three kinds of condition: a mapping, which can be combined with
the conditions of other rules; a fragment of a statement; or a scope, a whole
statement that stands in place of the one that would be built. The value given for a
condition is resolved to one of them, or refused.
-/

namespace RowPolicy

/-- The condition of a rule. -/
inductive Condition where
  | mapping (tree : ConditionTree)
  | fragment (body : Value)
  | scope (body : Value)

namespace Condition

instance : Inhabited Condition := ⟨mapping .nil⟩

/-- The kind of a condition. -/
def kind : Condition → ConditionKind
  | mapping _ => .mapping
  | fragment _ => .fragment
  | scope _ => .scope

/-- Only mappings can be combined with other conditions. -/
def isMergeable (c : Condition) : Bool := c.kind == .mapping

/-- A blank condition holds of every row. -/
def isBlank : Condition → Bool
  | mapping tree => tree.isEmpty
  | fragment _ | scope _ => false

/-- The names of the associations that a condition refers to. -/
def associations : Condition → JoinTree
  | mapping tree => tree.associations
  | fragment _ | scope _ => .nil

end Condition

/-- What was given cannot be a condition. -/
structure ConditionError where
  /-- The name of the type of the value given. -/
  typeName : String
  deriving DecidableEq, Repr

/-- The text of the error. -/
def ConditionError.message (e : ConditionError) : String :=
  "Rule conditions must be a mapping, a SQL fragment or a Select, got " ++ e.typeName

/-- The condition of a known kind; one that is no mapping in spite of its kind is a
mapping without entries. -/
def ConditionKind.condition : ConditionKind → Value → Condition
  | mapping, .map entries => .mapping (.ofEntries entries)
  | mapping, _ => .mapping .nil
  | fragment, body => .fragment body
  | scope, body => .scope body

namespace Value

/-- The condition that a value stands for: a mapping is one, a text or an expression is
a fragment, selected rows are a scope, and nothing at all is a blank condition. -/
def resolve : Value → Except ConditionError Condition
  | .map entries => .ok (.mapping (.ofEntries entries))
  | .null => .ok (.mapping .nil)
  | .str s => .ok (.fragment (.expr (.fragment s)))
  | .expr e => .ok (.fragment (.expr e))
  | .rows entity filter => .ok (.scope (.rows entity filter))
  | .resolved kind body => .ok (kind.condition body)
  | v => .error ⟨v.typeName⟩

/-- Whether resolving a value gives back the very condition that was given. -/
def isResolved : Value → Bool
  | .resolved _ _ => true
  | _ => false

end Value

/-- A condition as it can be given again. -/
def Condition.raw : Condition → Value
  | mapping tree => .map tree.entries
  | fragment body | scope body => body

end RowPolicy
