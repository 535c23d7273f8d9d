import RowPolicy.Number.Numeral
import RowPolicy.Value

/-!
# Conversion of values

A parameter of a type takes values of other types too, as far as they can be read as
values of its own: truth values and numerals as numbers, fractions as integers
without their fraction, zero and one as truth values. A decimal may also be given by
its sign, its digits and its exponent.
-/

namespace RowPolicy

namespace Scalar

/-- A byte string as text, if its bytes are those of the basic alphabet. -/
def basicText? (data : List UInt8) : Option String :=
  if data.all fun b => b.toNat < 128 then
    some (String.ofList (data.map fun b => Char.ofNat b.toNat))
  else none

/-- The integer that a scalar is taken for; a fraction is dropped. -/
def integer? : Scalar → Option Int
  | bool b => some (if b then 1 else 0)
  | int n => some n
  | float x => x.truncate?
  | str s => Numeral.integer? s
  | bytes data => (basicText? data).bind Numeral.integer?
  | null => none

/-- The truth value that a scalar is taken for. -/
def truth? : Scalar → Option Bool
  | bool b => some b
  | int 0 => some false
  | int 1 => some true
  | float x =>
      if x.compare? (.ofInt 0) = some .eq then some false
      else if x.compare? (.ofInt 1) = some .eq then some true
      else none
  | _ => none

/-- The double that a scalar is taken for; integers beyond all doubles are none. -/
def real? : Scalar → Option Binary64
  | bool b => some (.nearestInt (if b then 1 else 0))
  | int n =>
      match Binary64.nearestInt n with
      | .infinite _ => none
      | x => some x
  | float x => some x
  | str s => Numeral.real? s
  | bytes data => (basicText? data).bind Numeral.real?
  | null => none

end Scalar

namespace Value

/-- The integer that a value is taken for. -/
def integer? : Value → Option Int
  | .scalar s => s.integer?
  | _ => none

/-- The truth value that a value is taken for. -/
def truth? : Value → Option Bool
  | .scalar s => s.truth?
  | _ => none

/-- The double that a value is taken for. -/
def real? : Value → Option Binary64
  | .scalar s => s.real?
  | _ => none

/-- The elements of an ordered collection. -/
def sequence? : Value → Option (List Value)
  | .collection .list items | .collection .tuple items => some items
  | _ => none

/-- The integer that a value is, truth values included. -/
def whole? : Value → Option Int
  | bool b => some (if b then 1 else 0)
  | int n => some n
  | _ => none

/-- The decimal digit that a value is. -/
def digit? (v : Value) : Option Nat :=
  v.whole?.bind fun n => if 0 ≤ n ∧ n ≤ 9 then some n.toNat else none

/-- Whether digits and an exponent make a decimal; the exponent may also be a mark for an
infinity or a value that is not a number. -/
def isDecimalWith (digits : List Nat) : Value → Bool
  | str "F" | str "n" | str "N" => true
  | v => v.whole?.any fun n => Numeral.Written.isDecimal ⟨digits.foldl (10 * · + ·) 0, n⟩

/-- Whether a value is a decimal: a number, the numeral of one, or a sign with digits
and an exponent. -/
def isDecimal : Value → Bool
  | bool _ | int _ | float _ => true
  | str s => Numeral.isDecimal s
  | v =>
      match v.sequence? with
      | some [sign, digits, exponent] =>
          sign.whole?.any (fun n => decide (n = 0 ∨ n = 1))
            && (digits.sequence?.bind fun ds => ds.mapM digit?).any fun ds =>
              exponent.isDecimalWith ds
      | _ => false

end Value

end RowPolicy
