/-!
# Three-valued truth

A condition on a row is true, false or unknown; it is unknown when it depends on a
missing value. A row is selected when its condition is true.
-/

namespace RowPolicy.Sql

/-- A truth value of SQL. -/
inductive Truth where
  | no
  | unknown
  | yes
  deriving DecidableEq, Repr

namespace Truth

/-- The truth value of a decided question. -/
def ofBool (b : Bool) : Truth := if b then yes else no

/-- True if both are, false if one is false. -/
def and : Truth → Truth → Truth
  | no, _ | _, no => no
  | yes, yes => yes
  | _, _ => unknown

/-- True if one is true, false if both are false. -/
def or : Truth → Truth → Truth
  | yes, _ | _, yes => yes
  | no, no => no
  | _, _ => unknown

/-- The opposite; the opposite of unknown is unknown. -/
def not : Truth → Truth
  | yes => no
  | no => yes
  | unknown => unknown

/-- The decided question whether a truth value falls short of `yes`. -/
def isNotTrue (t : Truth) : Truth := ofBool (t != yes)

@[simp] theorem and_eq_yes {a b : Truth} : a.and b = yes ↔ a = yes ∧ b = yes := by
  cases a <;> cases b <;> simp [and]

@[simp] theorem or_eq_yes {a b : Truth} : a.or b = yes ↔ a = yes ∨ b = yes := by
  cases a <;> cases b <;> simp [or]

@[simp] theorem ofBool_eq_yes {b : Bool} : ofBool b = yes ↔ b = true := by
  cases b <;> simp [ofBool]

@[simp] theorem isNotTrue_eq_yes {t : Truth} : t.isNotTrue = yes ↔ t ≠ yes := by
  cases t <;> simp [isNotTrue, ofBool]

theorem not_and (a b : Truth) : (a.and b).not = a.not.or b.not := by
  cases a <;> cases b <;> rfl

theorem not_or (a b : Truth) : (a.or b).not = a.not.and b.not := by
  cases a <;> cases b <;> rfl

end Truth

end RowPolicy.Sql
