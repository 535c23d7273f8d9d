import RowPolicy.Number.Binary64

/-!
# Doubles as decimal text

A double is written with the fewest significant digits that read back as the same
double, and among those with the digits nearest to it. The digits are found on
decimal grids of one to seventeen places: the first grid with a point that rounds
to the double wins. `FloatLayout` says where positional notation ends.
-/

namespace RowPolicy

/-- A decimal number `digits · 10 ^ exponent`. -/
structure Decimal where
  digits : Nat
  exponent : Int
  deriving DecidableEq, Repr

namespace Decimal

/-- The power of ten just above a positive value: `10 ^ (p - 1) ≤ value < 10 ^ p`.
Doubles are never below `10 ^ -324`. -/
def placeOf (value : Rat) : Int :=
  if 1 ≤ value then ((Nat.toDigits 10 value.floor.toNat).length : Int)
  else -(((List.range 330).find? fun k => (1 : Rat) ≤ value * 10 ^ (k + 1)).getD 0 : Int)

/-- Drop trailing zeros, at most `fuel` of them. -/
def strip (fuel : Nat) (d : Decimal) : Decimal :=
  match fuel with
  | 0 => d
  | fuel + 1 =>
      if d.digits ≠ 0 ∧ d.digits % 10 = 0 then strip fuel ⟨d.digits / 10, d.exponent + 1⟩ else d

/-- The point of the grid `10 ^ exponent` nearest to `value`, among those between
`low` and `high`; the bounds themselves count if `closed`. -/
def nearestOnGrid (value low high : Rat) (closed : Bool) (exponent : Int) : Option Decimal :=
  let unit : Rat := 10 ^ exponent
  let below := (value / unit).floor.toNat
  let inside (n : Nat) : Bool :=
    let point : Rat := n * unit
    if closed then low ≤ point && point ≤ high else low < point && point < high
  match inside below, inside (below + 1) with
  | false, false => none
  | true, false => some ⟨below, exponent⟩
  | false, true => some ⟨below + 1, exponent⟩
  | true, true =>
      let gap : Rat := value - below * unit
      if 2 * gap < unit ∨ (2 * gap = unit ∧ below % 2 = 0) then some ⟨below, exponent⟩
      else some ⟨below + 1, exponent⟩

/-- The shortest decimal that rounds to the double `mantissa · 2 ^ exponent`. -/
def shortest (mantissa : Nat) (exponent : Int) : Decimal :=
  let value : Rat := mantissa * 2 ^ exponent
  let downward : Rat :=
    if mantissa = Binary64.leastNormalMantissa ∧ Binary64.leastExponent < exponent then
      2 ^ (exponent - 2)
    else 2 ^ (exponent - 1)
  let upward : Rat := 2 ^ (exponent - 1)
  let place := placeOf value
  let found := (List.range 17).findSome? fun n =>
    nearestOnGrid value (value - downward) (value + upward) (mantissa % 2 == 0)
      (place - (n + 1 : Nat))
  strip 17 (found.getD ⟨mantissa, 0⟩)

end Decimal

/-- How a shortest decimal is laid out. With the decimal point after the first
`point` digits, positional notation is used for `lowest ≤ point ≤ highest`. -/
structure FloatLayout where
  lowest : Int
  highest : Int
  /-- The least number of digits of an exponent. -/
  exponentDigits : Nat
  /-- Whether a single digit in front of an exponent is followed by `.0`. -/
  pointBeforeExponent : Bool

/-- Positional from `0.0001` to below `10 ^ 16`; exponents have a sign and two digits. -/
def FloatLayout.standard : FloatLayout := ⟨-3, 16, 2, false⟩

namespace Binary64

/-- Digits laid out with the decimal point after the first `point` of them. -/
def layOut (layout : FloatLayout) (digits : List Char) (point : Int) : String :=
  let zeros (n : Nat) : List Char := List.replicate n '0'
  if layout.lowest ≤ point ∧ point ≤ layout.highest then
    if point ≤ 0 then String.ofList (['0', '.'] ++ zeros (-point).toNat ++ digits)
    else if digits.length ≤ point.toNat then
      String.ofList (digits ++ zeros (point.toNat - digits.length) ++ ['.', '0'])
    else
      String.ofList (digits.take point.toNat ++ ['.'] ++ digits.drop point.toNat)
  else
    let power := point - 1
    let written := Nat.toDigits 10 power.natAbs
    let padded := zeros (layout.exponentDigits - written.length) ++ written
    let mantissa := match digits with
      | first :: second :: rest => first :: '.' :: second :: rest
      | few => if layout.pointBeforeExponent then few ++ ['.', '0'] else few
    String.ofList (mantissa ++ ['e', if power < 0 then '-' else '+'] ++ padded)

/-- A decimal laid out. -/
def ofDigits (layout : FloatLayout) (decimal : Decimal) : String :=
  let digits := Nat.toDigits 10 decimal.digits
  layOut layout digits (decimal.exponent + digits.length)

/-- The shortest text that reads back as the same double. -/
def text : Binary64 → String
  | nan => "nan"
  | infinite negative => if negative then "-inf" else "inf"
  | finite negative mantissa exponent =>
      let sign := if negative then "-" else ""
      if mantissa = 0 then sign ++ "0.0"
      else sign ++ ofDigits .standard (.shortest mantissa exponent)

end Binary64

end RowPolicy
