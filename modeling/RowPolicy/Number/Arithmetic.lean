import RowPolicy.Number.Binary64

/-!
# Arithmetic of doubles

The result of an operation on two finite doubles is the exact one, rounded to the nearest
double. An infinite double absorbs finite ones, and where two of them leave every result
possible it is not a number. A result that is zero keeps the sign that the rules of signs give.
-/

namespace RowPolicy.Binary64

/-- Whether a double has the sign of numbers below zero; a zero may have it. -/
def isNegative : Binary64 → Bool
  | finite negative _ _ | infinite negative => negative
  | nan => false

/-- Whether a double is zero, with either sign. -/
def isZero : Binary64 → Bool
  | finite _ mantissa _ => mantissa == 0
  | _ => false

/-- The double with the other sign. -/
def opposite : Binary64 → Binary64
  | finite negative mantissa exponent => finite (!negative) mantissa exponent
  | infinite negative => infinite !negative
  | nan => nan

/-- The double without its sign. -/
def magnitude (x : Binary64) : Binary64 := if x.isNegative then x.opposite else x

/-- Taking the opposite twice changes nothing. -/
theorem opposite_opposite (x : Binary64) : x.opposite.opposite = x := by
  cases x <;> simp [opposite]

/-- The zero with a sign. -/
def zero (negative : Bool) : Binary64 := finite negative 0 leastExponent

/-- The double nearest to an exact result, with the sign that the result has if it is zero. -/
def ofExact (negative : Bool) (r : Rat) : Binary64 :=
  if r = 0 then zero negative else ofRat r

/-- The sum of two doubles. -/
def add : Binary64 → Binary64 → Binary64
  | nan, _ => nan
  | _, nan => nan
  | infinite a, infinite b => if a = b then infinite a else nan
  | infinite a, finite _ _ _ => infinite a
  | finite _ _ _, infinite b => infinite b
  | x@(finite a _ _), y@(finite b _ _) =>
      ofExact (a && b) (x.value?.getD 0 + y.value?.getD 0)

/-- The difference of two doubles. -/
def sub (x y : Binary64) : Binary64 := x.add y.opposite

/-- The product of two doubles. -/
def mul : Binary64 → Binary64 → Binary64
  | nan, _ => nan
  | _, nan => nan
  | infinite a, infinite b => infinite (a != b)
  | infinite a, y@(finite b _ _) => if y.isZero then nan else infinite (a != b)
  | x@(finite a _ _), infinite b => if x.isZero then nan else infinite (a != b)
  | x@(finite a _ _), y@(finite b _ _) =>
      ofExact (a != b) (x.value?.getD 0 * y.value?.getD 0)

/-- The quotient of two doubles. -/
def div : Binary64 → Binary64 → Binary64
  | nan, _ => nan
  | _, nan => nan
  | infinite _, infinite _ => nan
  | infinite a, finite b _ _ => infinite (a != b)
  | finite a _ _, infinite b => zero (a != b)
  | x@(finite a _ _), y@(finite b _ _) =>
      if y.isZero then (if x.isZero then nan else infinite (a != b))
      else ofExact (a != b) (x.value?.getD 0 / y.value?.getD 0)

end RowPolicy.Binary64
