import RowPolicy.Number.Shortest

/-!
# Significant digits of doubles

A positive double is scaled by powers of ten until its integer part has eighteen or
nineteen digits; every product on the way is rounded to sixty-four binary digits. What is
written of it are some of these digits, a half being rounded away from zero.
-/

namespace RowPolicy

/-- Digits with the decimal point behind the first `point` of them. -/
structure Significant where
  digits : List Nat
  point : Int
  deriving DecidableEq, Repr

namespace Significant

/-- The digits of the number zero. -/
def zero : Significant := ⟨[0], 1⟩

/-- A positive value rounded to sixty-four binary digits. -/
def extended (r : Rat) : Rat :=
  let num := r.num.natAbs
  let guess : Int := (num.log2 : Int) - r.den.log2 - 64
  let (n, d) := Binary64.inUnits num r.den guess
  let exponent := if Nat.pow 2 64 ≤ n / d then guess + 1 else guess
  let (n, d) := Binary64.inUnits num r.den exponent
  Binary64.roundHalfEven n d * 2 ^ exponent

/-- Multiply a value by a power of ten as long as it is not below a bound, at most `fuel` times,
and count the decimal places. -/
def reduce (fuel : Nat) (bound : Rat) (places : Nat) (state : Rat × Int) : Rat × Int :=
  match fuel with
  | 0 => state
  | fuel + 1 =>
      if state.1 < bound then state
      else
        let factor := extended (1 / 10 ^ places)
        reduce fuel bound places (extended (state.1 * factor), state.2 + places)

/-- Multiply a value by a power of ten as long as it is below a bound, at most `fuel` times, and
count the decimal places. -/
def enlarge (fuel : Nat) (bound : Rat) (places : Nat) (state : Rat × Int) : Rat × Int :=
  match fuel with
  | 0 => state
  | fuel + 1 =>
      if bound ≤ state.1 then state
      else
        let factor := extended (10 ^ places)
        enlarge fuel bound places (extended (state.1 * factor), state.2 - places)

/-- A power of ten. -/
def powerOfTen (n : Nat) : Rat := (Nat.pow 10 n : Nat)

/-- A positive value with an integer part of eighteen or nineteen digits, and the power of ten by
which it was divided. -/
def scaled (value : Rat) : Rat × Int :=
  if powerOfTen 19 ≤ value then
    reduce 20 (powerOfTen 19) 1 (reduce 20 (powerOfTen 29) 10
      (reduce 4 (powerOfTen 119) 100 (value, 0)))
  else
    enlarge 20 (powerOfTen 17) 1 (enlarge 20 (powerOfTen 7) 10
      (enlarge 4 (1 / powerOfTen 97) 100 (value, 0)))

/-- All significant digits of a positive value. -/
def ofRat (value : Rat) : Significant :=
  let (value, scale) := scaled value
  let digits := (Nat.toDigits 10 value.floor.toNat).map fun c => c.toNat - '0'.toNat
  ⟨digits, scale + digits.length⟩

/-- Digits counted up by one in the last place, and whether a digit has to go in front. -/
def increased : List Nat → List Nat × Bool
  | [] => ([], true)
  | d :: rest =>
      let (rest, carry) := increased rest
      if !carry then (d :: rest, false)
      else if d = 9 then (0 :: rest, true)
      else ((d + 1) :: rest, false)

/-- Digits without the zeros at their end. -/
def trimmed (s : Significant) : Significant :=
  { s with digits := (s.digits.reverse.dropWhile (· = 0)).reverse }

/-- The first `count` digits, rounded. -/
def take (count : Nat) (s : Significant) : Significant :=
  let kept := s.digits.take count
  if 5 ≤ (s.digits.drop count).headD 0 then
    let (digits, carry) := increased kept
    if carry then ⟨1 :: digits, s.point + 1⟩ else ⟨digits, s.point⟩
  else ⟨kept, s.point⟩

/-- At most `count` significant digits, and never more than `limit` of them. -/
def rounded (count limit : Nat) (s : Significant) : Significant :=
  if 0 < count ∧ (count < s.digits.length ∨ limit < s.digits.length) then
    (s.take (Nat.min count limit)).trimmed
  else s.trimmed

/-- At most `places` digits behind the point, and never more than `limit` significant ones. -/
def toPlaces (places limit : Nat) (s : Significant) : Significant :=
  let count := s.point + places
  if count = 0 ∧ 5 ≤ s.digits.headD 0 then
    rounded 1 limit ⟨0 :: s.digits, s.point + 1⟩
  else s.rounded count.toNat limit

/-- The characters of the digits. -/
def chars (s : Significant) : List Char := s.digits.map fun n => Char.ofNat ('0'.toNat + n)

end Significant

/-- The text of a double with at most `count` significant digits; zero has no sign. -/
def Binary64.roundedText (layout : FloatLayout) (count : Nat) : Binary64 → String
  | nan => "NaN"
  | infinite negative => if negative then "-Inf" else "Inf"
  | finite negative mantissa exponent =>
      if mantissa = 0 then "0.0"
      else
        let s := (Significant.ofRat (mantissa * 2 ^ exponent)).rounded count 26
        (if negative then "-" else "") ++ layOut layout s.chars s.point

end RowPolicy
