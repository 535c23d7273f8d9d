import RowPolicy.Number.Arithmetic
import RowPolicy.Sql.Affinity
import RowPolicy.Sql.Expr
import RowPolicy.Sql.Semantics

/-!
# Operations on cells

Operators take any cells. Where numbers are needed, texts count for the number in front
of them, and for zero if there is none; a missing value makes the result missing.
Results that are too large for an integer become doubles.
-/

namespace RowPolicy

namespace Scalar

/-- The number that a cell counts for. -/
def number : Scalar → Scalar
  | null => null
  | bool b => int (if b then 1 else 0)
  | int n => int n
  | float x => float x
  | cell =>
      match Numeral.leading? cell.cellText.toList with
      | some n => ofNumeral n
      | none => int 0

/-- The cell of a double; what is not a number is missing. -/
def ofReal (x : Binary64) : Scalar := if x.isNaN then null else float x

/-- The double nearest to the number that a cell counts for. -/
def real (cell : Scalar) : Binary64 :=
  match cell.number with
  | int n => .nearestInt n
  | float x => x
  | _ => .nan

/-- The sign of the number that a cell counts for, as one of three integers. -/
def sign (cell : Scalar) : Int :=
  let x := cell.real
  if x.isZero then 0 else if x.isNegative then -1 else 1

/-- The nearest integer that a cell can hold. -/
def clamped (n : Int) : Int := max (-9223372036854775808) (min 9223372036854775807 n)

/-- The integer that a cell counts for; fractions are dropped. -/
def integerValue : Scalar → Int
  | null => 0
  | bool b => if b then 1 else 0
  | int n => n
  | float (.infinite negative) => clamped (if negative then -Nat.pow 2 64 else Nat.pow 2 64)
  | float x => clamped (x.truncate?.getD 0)
  | cell =>
      let (negative, cs) := Numeral.signed (cell.cellText.toList.dropWhile Numeral.isSpace)
      match Numeral.digits? (cs.takeWhile Char.isDigit) with
      | some n => clamped (if negative then -(n : Int) else n)
      | none => 0

/-- The truth of a cell in place of a condition: numbers other than zero are true. -/
def truth (cell : Scalar) : Sql.Truth :=
  match cell.number with
  | null => .unknown
  | int n => .ofBool (n != 0)
  | number => .ofBool !number.real.isZero

end Scalar

namespace Sql

/-- The cell that holds a truth value. -/
def Truth.cell : Truth → Scalar
  | no => .int 0
  | yes => .int 1
  | unknown => .null

/-- How texts are compared. -/
inductive Collation where
  | exact
  /-- Upper and lower case of the basic alphabet alike. -/
  | caseless
  /-- Spaces at the end do not count. -/
  | trimmed
  deriving DecidableEq, Repr

namespace Collation

/-- The collation with the given name, in either case. -/
def ofName? (name : String) : Option Collation :=
  match name.toUpper with
  | "BINARY" => some exact
  | "NOCASE" => some caseless
  | "RTRIM" => some trimmed
  | _ => none

/-- The text that stands for a text in comparisons. -/
def key (k : Collation) (cell : Scalar) : Scalar :=
  match k, cell with
  | caseless, .str s => .str (s.map Char.toLower)
  | trimmed, .str s =>
      .str (String.ofList (s.toList.reverse.dropWhile (· = ' ')).reverse)
  | _, cell => cell

/-- The order of two cells with their affinities. -/
def order? (k : Collation) (f : Affinity) (a : Scalar) (g : Affinity) (b : Scalar) :
    Option Ordering :=
  (k.key (f.adapt g a)).cellOrder? (k.key (g.adapt f b))

end Collation

/-- The kinds of cell that a cell can be cast to. -/
inductive CastKind where
  | integer
  | real
  | numeric
  | text
  | bytes
  deriving DecidableEq, Repr

namespace CastKind

/-- The kind that the name of a type stands for: what counts is which words occur in it. -/
def ofTypeName (name : String) : CastKind :=
  let name := name.toUpper.toList
  let mentions (word : String) : Bool := Value.occursIn word.toList name
  if mentions "INT" then integer
  else if mentions "CHAR" || mentions "CLOB" || mentions "TEXT" then text
  else if name.isEmpty || mentions "BLOB" then bytes
  else if mentions "REAL" || mentions "FLOA" || mentions "DOUB" then real
  else numeric

/-- The affinity of a cell that was cast. -/
def affinity : CastKind → Affinity
  | integer | real | numeric => .numeric
  | text => .text
  | bytes => .bytes

/-- A cell cast to a kind. -/
def cast : CastKind → Scalar → Scalar
  | _, .null => .null
  | integer, cell => .int cell.integerValue
  | real, cell =>
      match cell.number with
      | .int n => .float (.nearestInt n)
      | number => number
  | numeric, .float x => .float x
  | numeric, cell =>
      match cell.number with
      | .float x =>
          match x.truncate? with
          | some n => if Scalar.fits n && x.value? == some (n : Rat) then .int n else .float x
          | none => .float x
      | number => number
  | text, cell => .str cell.cellText
  | bytes, .bytes data => .bytes data
  | bytes, cell => .bytes cell.cellText.toUTF8.toList

end CastKind

/-- Operators on one operand. -/
inductive UnaryOp where
  | not
  | negate
  /-- A sign that changes nothing. -/
  | plus
  | complement
  | isNull
  | isTrue
  | isFalse
  | cast (kind : CastKind)
  | collate (k : Collation)
  deriving DecidableEq, Repr

/-- The value of an operator on one operand. -/
def UnaryOp.apply : UnaryOp → Scalar → Scalar
  | not, x => x.truth.not.cell
  | negate, x =>
      match x.number with
      | .int n => if Scalar.fits (-n) then .int (-n) else .float (.nearestInt (-n))
      | .float x => .ofReal ((Binary64.zero false).sub x)
      | number => number
  | plus, x => x
  | complement, x => if x = .null then .null else .int (-x.integerValue - 1)
  | isNull, x => (Truth.ofBool (x == .null)).cell
  | isTrue, x => (Truth.ofBool (x.truth == .yes)).cell
  | isFalse, x => (Truth.ofBool (x.truth == .no)).cell
  | cast kind, x => kind.cast x
  | collate _, x => x

/-- Operators on numbers. -/
inductive Arithmetic where
  | add
  | sub
  | mul
  | div
  | mod
  | bitAnd
  | bitOr
  | shiftLeft
  | shiftRight
  deriving DecidableEq, Repr

namespace Arithmetic

/-- An integer result, as a double if it is too large. -/
def whole (n : Int) : Scalar := if Scalar.fits n then .int n else .float (.nearestInt n)

/-- The result on two doubles. -/
def onReals (op : Arithmetic) (x y : Binary64) : Scalar :=
  match op with
  | add => .ofReal (x.add y)
  | sub => .ofReal (x.sub y)
  | mul => .ofReal (x.mul y)
  | div => if y.isZero then .null else .ofReal (x.div y)
  | _ => .null

/-- A bit pattern shifted to the left, or to the right if `count` is negative. -/
def shift (n count : Int) : Int :=
  if 0 ≤ count then
    if 64 ≤ count then 0 else (BitVec.ofInt 64 (n * Nat.pow 2 count.toNat)).toInt
  else if count ≤ -64 then (if n < 0 then -1 else 0)
  else n.fdiv (Nat.pow 2 (-count).toNat)

/-- The result on two integers; one that is too large is that on their doubles. -/
def onIntegers (op : Arithmetic) (x y : Int) : Scalar :=
  let fitting (n : Int) : Scalar :=
    if Scalar.fits n then .int n else op.onReals (.nearestInt x) (.nearestInt y)
  match op with
  | add => fitting (x + y)
  | sub => fitting (x - y)
  | mul => fitting (x * y)
  | div => if y = 0 then .null else fitting (x.tdiv y)
  | mod => if y = 0 then .null else whole (x.tmod y)
  | bitAnd => .int (BitVec.ofInt 64 x &&& BitVec.ofInt 64 y).toInt
  | bitOr => .int (BitVec.ofInt 64 x ||| BitVec.ofInt 64 y).toInt
  | shiftLeft => .int (shift x y)
  | shiftRight => .int (shift x (-y))

/-- The value of an operator on two cells. -/
def apply (op : Arithmetic) (a b : Scalar) : Scalar :=
  if a = .null ∨ b = .null then .null
  else
    match op with
    | add | sub | mul | div =>
        match a.number, b.number with
        | .int x, .int y => op.onIntegers x y
        | a, b => op.onReals a.real b.real
    | mod =>
        match a.number, b.number, onIntegers .mod a.integerValue b.integerValue with
        | .int _, .int _, result => result
        | _, _, .int n => .float (.nearestInt n)
        | _, _, result => result
    | op => op.onIntegers a.integerValue b.integerValue

end Arithmetic

/-- Operators on two operands. -/
inductive BinaryOp where
  | and
  | or
  | relation (r : Relation)
  /-- Equality for which a missing value equals another one. -/
  | same
  | concat
  | arithmetic (op : Arithmetic)
  deriving DecidableEq, Repr

/-- The value of an operator on two cells with their affinities. -/
def BinaryOp.apply (op : BinaryOp) (k : Collation) (f : Affinity) (a : Scalar) (g : Affinity)
    (b : Scalar) : Scalar :=
  match op with
  | and => (a.truth.and b.truth).cell
  | or => (a.truth.or b.truth).cell
  | relation r =>
      match k.order? f a g b with
      | some o => (Truth.ofBool (r.holds o)).cell
      | none => .null
  | same =>
      if a = .null ∨ b = .null then (Truth.ofBool (a == b)).cell
      else (Truth.ofBool (k.order? f a g b == some .eq)).cell
  | concat => if a = .null ∨ b = .null then .null else .str (a.cellText ++ b.cellText)
  | arithmetic op => op.apply a b

end Sql

end RowPolicy
