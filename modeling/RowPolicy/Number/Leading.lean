import RowPolicy.Number.Numeral

/-!
# Numbers in front of a text

Where a number is needed and a text is given, the text counts for the longest numeral
that it starts with, spaces aside. A numeral has a digit before or after its point; an
exponent belongs to it only if it has a digit itself.
-/

namespace RowPolicy.Numeral

/-- The spaces that may stand around a number. -/
def isSpace (c : Char) : Bool := c == ' ' || (9 ≤ c.toNat && c.toNat ≤ 13)

/-- A number in front of a text. -/
structure Leading where
  negative : Bool
  written : Written
  /-- Whether the number has neither a point nor an exponent. -/
  isWhole : Bool
  /-- What follows the number. -/
  rest : List Char

/-- An exponent in front of a text, and what follows it. -/
def leadingExponent? : List Char → Option (Int × List Char)
  | [] => none
  | mark :: cs =>
      if mark == 'e' || mark == 'E' then
        let (negative, cs) := signed cs
        (digits? (cs.takeWhile Char.isDigit)).map fun n =>
          (if negative then -(n : Int) else n, cs.dropWhile Char.isDigit)
      else none

/-- The unsigned number in front of a text. -/
def leadingUnsigned? (cs : List Char) : Option Leading := do
  let whole := cs.takeWhile Char.isDigit
  let rest := cs.dropWhile Char.isDigit
  let (fraction, rest, hasPoint) := match rest with
    | '.' :: rest => (rest.takeWhile Char.isDigit, rest.dropWhile Char.isDigit, true)
    | rest => ([], rest, false)
  let digits ← digits? (whole ++ fraction)
  match leadingExponent? rest with
  | some (exponent, rest) => some ⟨false, ⟨digits, exponent - fraction.length⟩, false, rest⟩
  | none => some ⟨false, ⟨digits, -fraction.length⟩, !hasPoint, rest⟩

/-- The number in front of a text, after spaces and a sign. -/
def leading? (cs : List Char) : Option Leading :=
  let (negative, cs) := signed (cs.dropWhile isSpace)
  (leadingUnsigned? cs).map fun number => { number with negative := negative }

/-- The number that a text consists of, spaces around it aside. -/
def entire? (cs : List Char) : Option Leading :=
  match leading? cs with
  | some number => if number.rest.all isSpace then some number else none
  | none => none

/-- The integer that a whole number stands for. -/
def Leading.integer (n : Leading) : Int :=
  if n.negative then -(n.written.digits : Int) else n.written.digits

/-- The double nearest to a number. -/
def Leading.nearest (n : Leading) : Binary64 := n.written.nearest n.negative

end RowPolicy.Numeral
