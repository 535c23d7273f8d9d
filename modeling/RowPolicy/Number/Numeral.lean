import RowPolicy.Number.Binary64
import RowPolicy.Text.Numeral

/-!
# Reading numerals

A numeral is a run of digits with an optional sign, fraction and exponent. Around it
there may be blanks, and underscores may set off groups of its digits. Integers and
decimals of any size are read exactly, doubles are rounded to the nearest one.
-/

namespace RowPolicy.Numeral

/-- The number written by a run of decimal digits; `none` if another character occurs
or there is no digit. -/
def digits? (cs : List Char) : Option Nat :=
  if cs.isEmpty ∨ ¬cs.all Char.isDigit then none
  else some (cs.foldl (fun n c => 10 * n + (c.toNat - '0'.toNat)) 0)

/-- A sign at the front, and what follows it. -/
def signed : List Char → Bool × List Char
  | '-' :: cs => (true, cs)
  | '+' :: cs => (false, cs)
  | cs => (false, cs)

/-- The integer written by digits after an optional sign. -/
def signedDigits? (cs : List Char) : Option Int :=
  let (negative, cs) := signed cs
  (digits? cs).map fun n => if negative then -(n : Int) else n

/-- Drop underscores that stand singly between two digits; `before` is the character
in front of the text. -/
def ungrouped (before : Char) : List Char → List Char
  | '_' :: c :: cs =>
      if before.isDigit && c.isDigit then c :: ungrouped c cs else '_' :: ungrouped '_' (c :: cs)
  | c :: cs => c :: ungrouped c cs
  | [] => []

/-- What is left of a numeral without blanks, groups of digits and foreign digits. -/
def plain (s : String) : List Char :=
  ungrouped ' ' (Text.plainDigits (Text.trimmed Text.isBlank s.toList))

/-- The number of digits that the numeral of an integer may have. -/
def digitLimit : Nat := 4300

/-- The integer that a text is the numeral of. -/
def integer? (s : String) : Option Int :=
  let cs := plain s
  if (signed cs).2.length ≤ digitLimit then signedDigits? cs else none

/-- An unsigned number as it is written: `digits · 10 ^ exponent`. -/
structure Written where
  digits : Nat
  exponent : Int
  deriving DecidableEq, Repr

/-- The number written by digits with an optional fraction and an optional exponent. -/
def written? (cs : List Char) : Option Written := do
  let isExponentMark (c : Char) : Bool := c == 'e' || c == 'E'
  let mantissa := cs.takeWhile fun c => !isExponentMark c
  let exponent ← match cs.dropWhile fun c => !isExponentMark c with
    | [] => some 0
    | _ :: exponent => signedDigits? exponent
  let whole := mantissa.takeWhile (· ≠ '.')
  let fraction := (mantissa.dropWhile (· ≠ '.')).drop 1
  let digits ← digits? (whole ++ fraction)
  some ⟨digits, exponent - fraction.length⟩

/-- The double nearest to a written number. Numbers that are too large for a double are
infinite and numbers that are too small are zero. -/
def Written.nearest (negative : Bool) (w : Written) : Binary64 :=
  let point : Int := w.exponent + (Nat.toDigits 10 w.digits).length
  if w.digits = 0 ∨ point < -400 then .finite negative 0 Binary64.leastExponent
  else if 400 < point then .infinite negative
  else .ofDecimal negative w.digits w.exponent

/-- The double that a text is the numeral of. -/
def real? (s : String) : Option Binary64 :=
  let (negative, cs) := signed (plain s)
  match String.ofList (cs.map Char.toLower) with
  | "nan" => some .nan
  | "inf" | "infinity" => some (.infinite negative)
  | _ => (written? cs).map (·.nearest negative)

/-- The exponent of the first digit of a decimal is at most this, and at least its
opposite unless all digits fit above `2 - 2 * 10 ^ 18`. -/
def greatestExponent : Nat := Nat.pow 10 18 - 1

/-- Whether a number is within the limits of a decimal. -/
def Written.isDecimal (w : Written) : Bool :=
  let first : Int := w.exponent + (Nat.toDigits 10 w.digits).length - 1
  decide (first ≤ greatestExponent)
    && (decide (-greatestExponent ≤ first) || decide (1 - 2 * greatestExponent ≤ w.exponent))

/-- Whether a text is the numeral of a decimal of any length, an infinity or a value
that is not a number. Underscores do not count at all, and separators are blanks. -/
def isDecimal (s : String) : Bool :=
  let cs := Text.trimmed Text.isBlankOrSeparator s.toList
  let cs := (Text.plainDigits cs).filter (· ≠ '_')
  let cs := (signed cs).2
  let isPayload (suffix : List Char) : Bool := suffix.all Char.isDigit
  match cs.map Char.toLower with
  | ['i', 'n', 'f'] | ['i', 'n', 'f', 'i', 'n', 'i', 't', 'y'] => true
  | 'n' :: 'a' :: 'n' :: suffix | 's' :: 'n' :: 'a' :: 'n' :: suffix => isPayload suffix
  | _ =>
      match written? cs with
      | some w => w.isDecimal
      | none => false

end RowPolicy.Numeral
