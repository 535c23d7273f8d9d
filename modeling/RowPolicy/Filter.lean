import RowPolicy.Comparison.Statement
import RowPolicy.Condition

/-!
# Filters

A filter is a condition whose associations are resolved: a mapping from references to
columns, all of which have to match, or something else that was given. Filters become
expressions; a text becomes a fragment as it is.
-/

namespace RowPolicy

/-- A condition with its associations resolved. -/
inductive Filter where
  /-- Values by column reference, an attribute name or `table.name`. -/
  | mapping (entries : Dict String Value)
  /-- Anything but a mapping. -/
  | value (v : Value)

/-- The condition that a column has a value: one of the elements if the value is a
collection, and passing the comparison if it is one. -/
def Value.leaf (c : Sql.Column) : Value → Except FilterError Sql.Expr
  | .comparison test operand => test.expr c operand
  | .collection _ items => Operator.isIn.membership false c items
  | v => .ok (Operator.equality false c v)

namespace Schema

/-- The condition of one entry of a mapping on an entity. -/
def entryExpr (s : Schema) (entity : String) (entry : String × Value) :
    Except FilterError Sql.Expr := do
  let column ← liftSchema (s.column entity entry.1)
  entry.2.leaf column

/-- The condition that all entries of a mapping hold on an entity; without entries it
is the constant `true`. -/
def mappingExpr (s : Schema) (entity : String) (entries : List (String × Value)) :
    Except FilterError Sql.Expr :=
  if entries.isEmpty then .ok (.const true)
  else do return .conjunction (← entries.mapM (s.entryExpr entity))

end Schema

namespace Filter

/-- The expression that a filter stands for on an entity. -/
def toExpr (s : Schema) (entity : String) : Filter → Except FilterError Sql.Expr
  | mapping entries => s.mappingExpr entity entries.entries
  | value (.expr e) => .ok e
  | value (.str text) => .ok (.fragment text)
  | value v => .error (.noFilter v.typeName)

end Filter

end RowPolicy
