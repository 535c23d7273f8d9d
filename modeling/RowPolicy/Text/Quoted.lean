import RowPolicy.Text.Hex
import RowPolicy.Text.Printable

/-!
# Quoted text

Names in messages are quoted so that every text has one written form on one line:
the quote and the backslash are escaped, and so is every character without a
printed form. A text that contains single but no double quotes is put between
double quotes; every other text between single quotes.
-/

namespace RowPolicy.Text

/-- The written form of one byte that is not shown as a character. -/
def escapedByte (n : Nat) : List Char := '\\' :: 'x' :: hexDigits 2 n

/-- The written form of a character between two `quote` characters. -/
def escapedChar (quote c : Char) : List Char :=
  if c = quote ∨ c = '\\' then ['\\', c]
  else if c = '\n' then ['\\', 'n']
  else if c = '\r' then ['\\', 'r']
  else if c = '\t' then ['\\', 't']
  else if isPrintable c then [c]
  else if c.toNat < 0x100 then escapedByte c.toNat
  else if c.toNat < 0x10000 then '\\' :: 'u' :: hexDigits 4 c.toNat
  else '\\' :: 'U' :: hexDigits 8 c.toNat

/-- The quote to put around a text: double only where that avoids escaping. -/
def quoteFor (cs : List Char) : Char :=
  if '\'' ∈ cs ∧ '"' ∉ cs then '"' else '\''

/-- The text between quotes. -/
def quoted (s : String) : String :=
  let quote := quoteFor s.toList
  String.ofList (quote :: s.toList.flatMap (escapedChar quote) ++ [quote])

/-- A sequence of texts with `, ` between them. -/
def commaSeparated (texts : List String) : String := String.intercalate ", " texts

/-- The quoted texts between square brackets. -/
def quotedList (texts : List String) : String :=
  "[" ++ commaSeparated (texts.map quoted) ++ "]"

end RowPolicy.Text
