/-!
# Kinds of conditions

A condition is a mapping, which can be combined with other conditions, a fragment of
a statement, or a scope, which stands in place of a whole statement.
-/

namespace RowPolicy

/-- The kinds of condition. -/
inductive ConditionKind where
  | mapping
  | fragment
  | scope
  deriving DecidableEq, Repr

namespace ConditionKind

/-- The name of a kind of condition. -/
def name : ConditionKind → String
  | mapping => "structured"
  | fragment => "opaque"
  | scope => "scope"

/-- The name of the type of conditions of a kind. -/
def typeName : ConditionKind → String
  | mapping => "Structured"
  | fragment => "Opaque"
  | scope => "Scope"

/-- The name of what conditions of a kind consist of. -/
def bodyName : ConditionKind → String
  | mapping => "mapping"
  | fragment => "fragment"
  | scope => "select"

end ConditionKind

end RowPolicy
