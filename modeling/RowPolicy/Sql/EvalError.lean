/-!
# Failures of a running query

A query that was understood can still fail on the rows that it goes through.
-/

namespace RowPolicy.Sql

/-- Why a value cannot be computed. -/
inductive EvalError where
  /-- An integer is too large. -/
  | overflow
  /-- A limit is no integer. -/
  | notWhole
  /-- A text or a byte string is too long. -/
  | tooLong
  /-- An argument has no meaning for its function. -/
  | argument
  deriving DecidableEq, Repr

end RowPolicy.Sql
