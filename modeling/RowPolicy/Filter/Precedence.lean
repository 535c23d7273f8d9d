import RowPolicy.Filter.Error
import RowPolicy.Sql.Expr

/-!
# Precedence of rules

Rules are taken in the order of declaration, so that a later rule has the last word:
an allowing rule adds the rows for which its condition holds, a denying rule removes
them and keeps those for which the condition is unknown. Filters that are constant so
far are combined at once.
-/

namespace RowPolicy.Sql.Expr

/-- The opposite of a condition; that of a text fragment cannot be built. -/
def negated (e : Expr) : Except FilterError Expr :=
  match e.negate? with
  | some opposite => .ok opposite
  | none => .error .fragmentNegated

/-- The filter after one more rule; a rule without condition decides alone. -/
def override (acc : Expr) (allow : Bool) (condition : Option Expr) : Except FilterError Expr :=
  match condition with
  | none => .ok (.const allow)
  | some e =>
      match acc with
      | .const true => if allow then .ok (.const true) else e.negated
      | .const false => .ok (if allow then e else .const false)
      | acc =>
          if allow then .ok (disjunction [e, acc])
          else do return conjunction [← e.negated, acc]

/-- A condition on a joined subject, limited to rows where the subject was found. -/
def guarded (key : Column) (condition : Expr) : Expr :=
  conjunction [.nullTest true key, condition]

/-- The filter on joined subjects after one more guarded condition; the first one
stands for itself or its opposite. -/
def overrideGuarded (acc : Option Expr) (allow : Bool) (e : Expr) : Except FilterError Expr :=
  match acc with
  | none => if allow then .ok e else e.negated
  | some acc =>
      if allow then .ok (disjunction [e, acc])
      else do return conjunction [← e.negated, acc]

/-- The same where the condition may be missing, which is taken for the unknown; nothing
at all stays nothing if it is allowed. -/
def overrideOptional (acc : Option Expr) (allow : Bool) (e : Option Expr) :
    Except FilterError (Option Expr) :=
  if acc.isNone && e.isNone && allow then .ok none
  else some <$> overrideGuarded acc allow (e.getD .unknown)

end RowPolicy.Sql.Expr
