/-!
# Characters of numerals

Numerals are written with the decimal digits of any script, each script having ten of
them in a row, and may stand between blanks. Whether the controls that separate files,
groups, records and units are blanks depends on the kind of numeral.
-/

namespace RowPolicy.Text

/-- The zero of every script with decimal digits, in increasing order. -/
def zeroDigits : Array Nat :=
  #[
    48, 1632, 1776, 1984, 2406, 2534, 2662, 2790, 2918, 3046,
    3174, 3302, 3430, 3558, 3664, 3792, 3872, 4160, 4240, 6112,
    6160, 6470, 6608, 6784, 6800, 6992, 7088, 7232, 7248, 42528,
    43216, 43264, 43472, 43504, 43600, 44016, 65296, 66720, 68912, 69734,
    69872, 69942, 70096, 70384, 70736, 70864, 71248, 71360, 71472, 71904,
    72016, 72784, 73040, 73120, 92768, 92864, 93008, 120782, 120792, 120802,
    120812, 120822, 123200, 123632, 125264, 130032]

/-- The digit that a character stands for. -/
def digit? (c : Char) : Option Nat :=
  (zeroDigits.find? fun first => first ≤ c.toNat && c.toNat < first + 10).map (c.toNat - ·)

/-- Characters that leave an empty space: the separators of all scripts and the
controls for a new column, line or page. -/
def isBlank (c : Char) : Bool :=
  let n := c.toNat
  (9 ≤ n && n ≤ 13) || n == 32 || n == 0x85 || n == 0xa0 || n == 0x1680
    || (0x2000 ≤ n && n ≤ 0x200a) || n == 0x2028 || n == 0x2029 || n == 0x202f || n == 0x205f
    || n == 0x3000

/-- Blanks and the controls that separate files, groups, records and units. -/
def isBlankOrSeparator (c : Char) : Bool := isBlank c || (28 ≤ c.toNat && c.toNat ≤ 31)

/-- A text without the blanks around it. -/
def trimmed (blank : Char → Bool) (cs : List Char) : List Char :=
  ((cs.dropWhile blank).reverse.dropWhile blank).reverse

/-- A text with the decimal digits of every script as those from `0` to `9`. -/
def plainDigits (cs : List Char) : List Char :=
  cs.map fun c => match digit? c with
    | some d => Char.ofNat ('0'.toNat + d)
    | none => c

end RowPolicy.Text
