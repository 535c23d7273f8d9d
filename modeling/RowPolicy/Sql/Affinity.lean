import RowPolicy.Number.Leading
import RowPolicy.Number.Significant
import RowPolicy.Sql.Column
import RowPolicy.Value.Order

/-!
# Cells beside each other

Cells of different types can be compared: numbers come before texts and texts before
byte strings. A column first adapts what it is compared with. Beside a column of
numbers a text that is a numeral counts as the number, and beside a column of texts a
number counts as its text.
-/

namespace RowPolicy

namespace Scalar

/-- Whether a cell can hold an integer. -/
def fits (n : Int) : Bool := decide (-9223372036854775808 ≤ n ∧ n ≤ 9223372036854775807)

/-- A written number as a cell holds it: as an integer if it is whole and not too large,
and as a double otherwise. -/
def ofNumeral (n : Numeral.Leading) : Scalar :=
  if n.isWhole && fits n.integer then .int n.integer else .float n.nearest

/-- How cells show doubles: positional from `0.0001` to below `10 ^ 15`. -/
def cellLayout : FloatLayout := ⟨-3, 15, 2, true⟩

/-- The text of bytes. -/
def textOfBytes (data : List UInt8) : String :=
  (String.fromUTF8? ⟨data.toArray⟩).getD (String.ofList (data.map fun b => Char.ofNat b.toNat))

/-- A cell as text; doubles are shown with fifteen digits. -/
def cellText : Scalar → String
  | null => ""
  | bool b => if b then "1" else "0"
  | int n => toString n
  | float x => x.roundedText cellLayout 15
  | str s => s
  | bytes data => textOfBytes data

/-- A cell as a number, as far as it is one: a text has to be a numeral as a whole. -/
def asNumeric : Scalar → Scalar
  | str s =>
      match Numeral.entire? s.toList with
      | some n => ofNumeral n
      | none => str s
  | cell => cell

/-- A cell as text; missing values and byte strings stay what they are. -/
def asText : Scalar → Scalar
  | null => null
  | bytes data => bytes data
  | cell => str cell.cellText

/-- The place of a scalar's kind in the common order: numbers, texts, byte strings. -/
def rank : Scalar → Nat
  | null | bool _ | int _ | float _ => 0
  | str _ => 1
  | bytes _ => 2

/-- The order of two cells, `none` if one is missing or not a number. Kinds without an
order of their own are ordered by rank. -/
def cellOrder? (a b : Scalar) : Option Ordering :=
  if a = null ∨ b = null then none
  else
    match a.order? b with
    | some order => order
    | none => some (compare a.rank b.rank)

end Scalar

namespace Sql

/-- How an operand of a comparison adapts the other one. -/
inductive Affinity where
  /-- Not at all, and it is itself adapted by columns. -/
  | none
  /-- Not at all, and it is adapted by columns of numbers only. -/
  | bytes
  | text
  | numeric
  deriving DecidableEq, Repr

namespace Affinity

/-- The affinity that two operands have together. -/
def common (f g : Affinity) : Affinity :=
  if f = none then g else if g = none then f
  else if f = numeric ∨ g = numeric then numeric else bytes

/-- A cell that an affinity is applied to. -/
def applied (f : Affinity) (cell : Scalar) : Scalar :=
  match f with
  | numeric => cell.asNumeric
  | text => cell.asText
  | _ => cell

/-- A cell of affinity `own` beside one of affinity `other`. -/
def adapt (own other : Affinity) (cell : Scalar) : Scalar :=
  match own, other with
  | numeric, _ => cell
  | _, numeric => cell.asNumeric
  | none, text => cell.asText
  | _, _ => cell

/-- The order of two cells with their affinities. -/
def order? (f : Affinity) (a : Scalar) (g : Affinity) (b : Scalar) : Option Ordering :=
  (adapt f g a).cellOrder? (adapt g f b)

end Affinity

end Sql

/-- The affinity of columns of a type. -/
def ScalarType.affinity : ScalarType → Sql.Affinity
  | integer | truth | real => .numeric
  | text => .text
  | bytes => .bytes

/-- The affinity of a column. -/
def Sql.Column.affinity (c : Sql.Column) : Sql.Affinity := c.type.affinity

end RowPolicy
