/-!
# Estimates

How many rows or steps there are is estimated by order of size. An estimate is ten times the
binary logarithm of a number, where the logarithm is taken from the first four bits of the number.
Adding estimates multiplies what they stand for.
-/

namespace RowPolicy

/-- A number by its order of size: ten times its binary logarithm. -/
abbrev Estimate := Int

namespace Estimate

/-- The estimate of a number; nothing at all counts as one. -/
def ofNat (n : Nat) : Estimate :=
  if n < 2 then 0
  else
    let eighths := n * 8 / Nat.pow 2 n.log2
    10 * n.log2 + ([0, 2, 3, 5, 6, 7, 8, 9].getD (eighths - 8) 0)

/-- By how much a sum exceeds the greater one of two numbers whose estimates are so far apart. -/
def excess (distance : Nat) : Int :=
  if 49 < distance then 0
  else [10, 10, 9, 9, 8, 8, 7, 7, 7, 6, 6, 6, 5, 5, 5, 4, 4, 4, 4, 3, 3, 3, 3, 3, 3, 2, 2, 2, 2, 2,
    2, 2].getD distance 1

/-- The estimate of the sum of two numbers. -/
def plus (a b : Estimate) : Estimate := max a b + excess (a - b).natAbs

/-- The estimate of the steps in which one of so many rows is found in order. -/
def depth (rows : Estimate) : Estimate := if rows ≤ 10 then 0 else ofNat rows.toNat - 33

end Estimate

end RowPolicy
