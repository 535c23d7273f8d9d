/-!
# Double-precision numbers

A finite number is kept as its exact value `±mantissa · 2 ^ exponent`. Decimals are
rounded to the nearest double, a tie going to the even mantissa, and comparisons
are made on exact values, so a double can be compared with an integer of any size.
-/

namespace RowPolicy

/-- A double-precision number, by its exact value. -/
inductive Binary64 where
  | nan
  | infinite (negative : Bool)
  | finite (negative : Bool) (mantissa : Nat) (exponent : Int)
  deriving DecidableEq, Repr

namespace Binary64

/-- The least exponent of a double: subnormal numbers are multiples of `2 ^ -1074`. -/
def leastExponent : Int := -1074

/-- The greatest exponent of a double with a mantissa of 53 bits. -/
def greatestExponent : Int := 971

/-- The quotient rounded to the nearest natural number, a tie going to the even one. -/
def roundHalfEven (num den : Nat) : Nat :=
  let quotient := num / den
  let twice := 2 * (num % den)
  if twice < den ∨ (twice = den ∧ quotient % 2 = 0) then quotient else quotient + 1

/-- Numerator and denominator of `num / den` measured in units of `2 ^ exponent`. -/
def inUnits (num den : Nat) (exponent : Int) : Nat × Nat :=
  if 0 ≤ exponent then (num, den * Nat.pow 2 exponent.toNat)
  else (num * Nat.pow 2 (-exponent).toNat, den)

/-- Mantissas lie below `2 ^ 53`. -/
def mantissaBound : Nat := Nat.pow 2 53

/-- The mantissas of normal numbers start at `2 ^ 52`. -/
def leastNormalMantissa : Nat := Nat.pow 2 52

/-- The double nearest to `num / den`. -/
def ofQuotient (negative : Bool) (num den : Nat) : Binary64 :=
  if num = 0 then finite negative 0 leastExponent
  else
    let guess : Int := max ((num.log2 : Int) - den.log2 - 53) leastExponent
    let (n, d) := inUnits num den guess
    let exponent := if mantissaBound ≤ n / d then guess + 1 else guess
    let (n, d) := inUnits num den exponent
    let mantissa := roundHalfEven n d
    let (mantissa, exponent) :=
      if mantissa = mantissaBound then (leastNormalMantissa, exponent + 1)
      else (mantissa, exponent)
    if greatestExponent < exponent then infinite negative
    else finite negative mantissa exponent

/-- The double nearest to `digits · 10 ^ exponent`. -/
def ofDecimal (negative : Bool) (digits : Nat) (exponent : Int) : Binary64 :=
  if 0 ≤ exponent then ofQuotient negative (digits * Nat.pow 10 exponent.toNat) 1
  else ofQuotient negative digits (Nat.pow 10 (-exponent).toNat)

/-- The exact value of a finite double, and `none` for the others. -/
def value? : Binary64 → Option Rat
  | finite negative mantissa exponent =>
      let magnitude : Rat := mantissa * 2 ^ exponent
      some (if negative then -magnitude else magnitude)
  | _ => none

/-- Whether a double is the special value that equals nothing. -/
def isNaN : Binary64 → Bool
  | nan => true
  | _ => false

/-- The order of two doubles by value, `none` if one of them is not a number. -/
def compare? : Binary64 → Binary64 → Option Ordering
  | nan, _ => none
  | _, nan => none
  | infinite a, infinite b => some (if a = b then .eq else if a then .lt else .gt)
  | infinite a, finite _ _ _ => some (if a then .lt else .gt)
  | finite _ _ _, infinite b => some (if b then .gt else .lt)
  | a@(finite _ _ _), b@(finite _ _ _) => do
      let x ← a.value?
      let y ← b.value?
      some (if x < y then .lt else if x = y then .eq else .gt)

/-- An integer as an exact value of any size, for comparison with doubles. -/
def ofInt (n : Int) : Binary64 := finite (n < 0) n.natAbs 0

/-- The double nearest to a rational number. -/
def ofRat (r : Rat) : Binary64 := ofQuotient (r < 0) r.num.natAbs r.den

/-- The double nearest to an integer. -/
def nearestInt (n : Int) : Binary64 := ofQuotient (n < 0) n.natAbs 1

/-- The integer that is left when the fraction is dropped, for finite numbers. -/
def truncate? : Binary64 → Option Int
  | finite negative mantissa exponent =>
      let magnitude : Nat :=
        if 0 ≤ exponent then mantissa * Nat.pow 2 exponent.toNat
        else mantissa / Nat.pow 2 (-exponent).toNat
      some (if negative then -magnitude else magnitude)
  | _ => none

end Binary64

end RowPolicy
