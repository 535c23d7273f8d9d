import RowPolicy.Number.Significant
import RowPolicy.Sql.EvalError
import RowPolicy.Sql.Operation
import RowPolicy.Text.Hex

/-!
# Formatted text

A format is a text with directives. A directive begins with a percent sign and says how the
next value is written: as a number, a text or a quoted text, with a least width and a
precision. A letter that means nothing ends the text. Values that are missing at the end
count as zero or as no text at all.
-/

namespace RowPolicy.Sql

/-- How a value is written. -/
structure Directive where
  left : Bool
  /-- What stands in front of numbers that are not negative. -/
  sign : Option Char
  /-- The marks of other bases are written, and the point of every number. -/
  alternate : Bool
  /-- Widths count characters, and numbers have more digits. -/
  full : Bool
  zeros : Bool
  /-- Digits are set off in groups of three. -/
  grouped : Bool
  width : Nat
  precision : Option Nat
  deriving Repr

namespace Directive

/-- The directive that asks for nothing. -/
def plain : Directive := ⟨false, none, false, false, false, false, 0, none⟩

/-- The natural number in front of a text. -/
def number (cs : List Char) : Nat × List Char :=
  ((Numeral.digits? (cs.takeWhile Char.isDigit)).getD 0, cs.dropWhile Char.isDigit)

/-- The letter of a directive, behind marks of length. -/
def letter? : List Char → Option (Char × List Char)
  | 'l' :: 'l' :: c :: cs => some (c, cs)
  | ['l', 'l'] => none
  | 'l' :: c :: cs => some (c, cs)
  | ['l'] => none
  | c :: cs => some (c, cs)
  | [] => none

/-- The integer that the next value counts for. -/
def nextInteger (values : List Scalar) : Int := (values.headD .null).integerValue

/-- An integer of thirty-two bits. -/
def short (n : Int) : Int := (BitVec.ofInt 32 n).toInt

/-- A directive with a width that is given as a value. -/
def withWidth (d : Directive) (n : Int) : Directive :=
  let n := short n
  if n < 0 then { d with left := true, width := if n = -2147483648 then 0 else n.natAbs }
  else { d with width := n.toNat }

/-- Read a directive behind its percent sign, as far as its letter. -/
def read (fuel : Nat) (d : Directive) (cs : List Char) (values : List Scalar) :
    Option (Directive × Char × List Char × List Scalar) :=
  match fuel, cs with
  | 0, _ => none
  | _, [] => none
  | fuel + 1, '-' :: cs => read fuel { d with left := true } cs values
  | fuel + 1, '+' :: cs => read fuel { d with sign := some '+' } cs values
  | fuel + 1, ' ' :: cs => read fuel { d with sign := some ' ' } cs values
  | fuel + 1, '#' :: cs => read fuel { d with alternate := true } cs values
  | fuel + 1, '!' :: cs => read fuel { d with full := true } cs values
  | fuel + 1, '0' :: cs => read fuel { d with zeros := true } cs values
  | fuel + 1, ',' :: cs => read fuel { d with grouped := true } cs values
  | fuel + 1, '*' :: cs =>
      let d := d.withWidth (nextInteger values)
      match cs with
      | '.' :: _ => read fuel d cs (values.drop 1)
      | cs => (letter? cs).map fun (c, cs) => (d, c, cs, values.drop 1)
  | _ + 1, '.' :: '*' :: cs =>
      let n := short (nextInteger values)
      let precision := if n = -2147483648 then none else some n.natAbs
      (letter? cs).map fun (c, cs) => ({ d with precision := precision }, c, cs, values.drop 1)
  | _ + 1, '.' :: cs =>
      let (n, cs) := number cs
      (letter? cs).map fun (c, cs) =>
        ({ d with precision := some (n % 2147483648) }, c, cs, values)
  | fuel + 1, c :: cs =>
      if c.isDigit then
        let (n, rest) := number (c :: cs)
        let d := { d with width := n % 2147483648 }
        match rest with
        | '.' :: _ => read fuel d rest values
        | rest => (letter? rest).map fun (c, rest) => (d, c, rest, values)
      else (letter? (c :: cs)).map fun (c, cs) => (d, c, cs, values)

/-- The number of bytes of some characters. -/
def byteCount (cs : List Char) : Nat := (String.ofList cs).utf8ByteSize

/-- Some characters with spaces around them, so that they fill the width. -/
def padded (d : Directive) (count : Nat) (cs : List Char) : List Char :=
  let spaces := List.replicate (d.width - count) ' '
  if d.left then cs ++ spaces else spaces ++ cs

/-- A text in its width. -/
def paddedText (d : Directive) (cs : List Char) : List Char :=
  d.padded (if d.full then cs.length else byteCount cs) cs

/-- As many characters from the front as the given number of bytes holds. -/
def takeBytes (count : Nat) : List Char → List Char
  | [] => []
  | c :: cs => if c.utf8Size ≤ count then c :: takeBytes (count - c.utf8Size) cs else []

/-- The part of a text that the precision leaves; a null character ends it. -/
def cut (d : Directive) (cs : List Char) : List Char :=
  let cs := cs.takeWhile (· ≠ '\x00')
  match d.precision with
  | none => cs
  | some n => if d.full then cs.take n else takeBytes n cs

/-- Digits in groups of three, counted from the end. -/
def grouping (digits : List Char) : List Char :=
  (digits.reverse.zipIdx.flatMap fun (c, n) =>
    if n ≠ 0 ∧ n % 3 = 0 then [',', c] else [c]).reverse

/-- The digits of an integer with what stands in front of it. -/
def integerText (d : Directive) (front : Option Char) (mark : List Char) (digits : List Char)
    (tail : List Char) : List Char :=
  let taken := front.toList.length
  let count :=
    if d.zeros then Nat.max (d.precision.getD 0) (d.width - taken) else d.precision.getD 0
  let body := digits ++ tail
  let body := List.replicate (count - body.length) '0' ++ body
  let body := if d.grouped then grouping body else body
  let text := mark ++ front.toList ++ body
  d.padded text.length text

/-- The ending of an ordinal number. -/
def ordinalEnding (n : Nat) : List Char :=
  if n / 10 % 10 = 1 then ['t', 'h']
  else
    match n % 10 with
    | 1 => ['s', 't']
    | 2 => ['n', 'd']
    | 3 => ['r', 'd']
    | _ => ['t', 'h']

/-- An integer, or the pattern of its bits. -/
def integer (d : Directive) (c : Char) (n : Int) : List Char :=
  let pattern := (BitVec.ofInt 64 n).toNat
  let front := if n < 0 then some '-' else d.sign
  let marked (mark : List Char) : List Char := if d.alternate && pattern != 0 then mark else []
  let radix := { d with grouped := false }
  match c with
  | 'u' => d.integerText none [] (Nat.toDigits 10 pattern) []
  | 'o' => radix.integerText none (marked ['0']) (Nat.toDigits 8 pattern) []
  | 'x' => radix.integerText none (marked ['0', 'x']) (Nat.toDigits 16 pattern) []
  | 'p' =>
      radix.integerText none (marked ['0', 'x']) ((Nat.toDigits 16 pattern).map Char.toUpper) []
  | 'X' =>
      radix.integerText none (marked ['0', 'X'])
        ((Nat.toDigits 16 pattern).map Char.toUpper) []
  | 'r' =>
      radix.integerText front [] (Nat.toDigits 10 n.natAbs) (ordinalEnding n.natAbs)
  | _ => d.integerText front [] (Nat.toDigits 10 n.natAbs) []

/-- The exponent behind a mark. -/
def exponentText (mark : Char) (n : Int) : List Char :=
  let digits := Nat.toDigits 10 n.natAbs
  [mark, if n < 0 then '-' else '+'] ++ List.replicate (2 - digits.length) '0' ++ digits

/-- Digits without the zeros at the end of their fraction. Of an empty fraction the point
stays only if a zero follows it. -/
def withoutZeros (full : Bool) (cs : List Char) : List Char :=
  match cs.reverse.dropWhile (· = '0') with
  | '.' :: rest => if full then ('0' :: '.' :: rest).reverse else rest.reverse
  | rest => rest.reverse

/-- The digits of a positive number or zero, with a fraction of `places` digits. -/
def positional (d : Directive) (places : Nat) (drops : Bool) (s : Significant) : List Char :=
  let digits := s.chars
  let zeros (n : Nat) : List Char := List.replicate n '0'
  let count := s.point.toNat
  let whole := if s.point ≤ 0 then ['0'] else digits.take count ++ zeros (count - digits.length)
  let whole := if d.grouped then grouping whole else whole
  let fraction := (zeros (-s.point).toNat ++ digits.drop count).take places
  let fraction := fraction ++ zeros (places - fraction.length)
  if places = 0 ∧ !d.alternate ∧ !d.full then whole
  else
    let text := whole ++ '.' :: fraction
    if drops then withoutZeros d.full text else text

/-- A double, positional or with an exponent. -/
def real (d : Directive) (c : Char) (x : Binary64) : List Char :=
  let places := d.precision.getD 6
  let limit := if d.full then 26 else 16
  let negative := match x with
    | .finite negative mantissa _ => negative && mantissa != 0
    | .infinite negative => negative
    | .nan => false
  let front : List Char := if negative then ['-'] else d.sign.toList
  let written (all : Significant) : List Char :=
    let body := match c with
      | 'f' => d.positional places d.full (all.toPlaces places limit)
      | 'e' | 'E' =>
          let s := all.rounded (places + 1) limit
          d.positional places d.full ⟨s.digits, 1⟩ ++ exponentText c (s.point - 1)
      | c =>
          let places := Nat.max places 1
          let s := all.rounded places limit
          let exponent := s.point - 1
          if exponent < -4 ∨ (places : Int) - 1 < exponent then
            d.positional (places - 1) (!d.alternate) ⟨s.digits, 1⟩
              ++ exponentText (if c = 'g' then 'e' else 'E') exponent
          else d.positional ((places : Int) - 1 - exponent).toNat (!d.alternate) s
    let text := front ++ body
    if d.zeros && !d.left then front ++ List.replicate (d.width - text.length) '0' ++ body
    else d.padded text.length text
  match x with
  | .nan => d.padded 3 (if d.zeros then ['n', 'u', 'l', 'l'] else ['N', 'a', 'N'])
  | .infinite _ =>
      if d.zeros then written ⟨[9], 1000⟩
      else
        let text := front ++ ['I', 'n', 'f']
        d.padded text.length text
  | .finite _ mantissa exponent =>
      written (if mantissa = 0 then .zero else .ofRat (mantissa * 2 ^ exponent))

/-- A text in which every quote is written twice. -/
def quoted (q : Char) (cs : List Char) : List Char :=
  cs.flatMap fun c => if c = q then [q, q] else [c]

/-- The text that a value is written as; some letters end the whole text. -/
def write? (d : Directive) (c : Char) (value : Option Scalar) : Option (List Char) :=
  let cell := value.getD .null
  let text : Option (List Char) := if cell = .null then none else some cell.cellText.toList
  match c with
  | 'd' | 'i' | 'u' | 'o' | 'x' | 'X' | 'p' | 'r' => some (d.integer c cell.integerValue)
  | 'f' | 'e' | 'E' | 'g' | 'G' =>
      some (match CastKind.real.cast cell with
        | .float x => d.real c x
        | _ => d.real c (.nearestInt 0))
  | 's' | 'z' => some (d.paddedText (d.cut (text.getD [])))
  | 'c' =>
      let first := (text.getD []).headD '\x00'
      some ({ d with full := true }.paddedText
        (List.replicate (Nat.max 1 (d.precision.getD 1)) first))
  | 'q' => some (d.paddedText (quoted '\'' (d.cut (text.getD "(NULL)".toList))))
  | 'Q' =>
      some (d.paddedText (match text with
        | none => d.cut "NULL".toList
        | some cs => '\'' :: quoted '\'' (d.cut cs) ++ ['\'']))
  | 'w' => some (d.paddedText (quoted '"' (d.cut (text.getD "(NULL)".toList))))
  | _ => none

/-- Widths and precisions that no text can have. -/
def longest : Nat := 20000000

/-- The text that a format makes of some values, unless it would be too long. -/
def apply (fuel : Nat) (format : List Char) (values : List Scalar) : Option (List Char) :=
  match fuel, format with
  | 0, _ => some []
  | _, [] => some []
  | _, ['%'] => some ['%']
  | fuel + 1, '%' :: cs =>
      match read (cs.length + 1) .plain cs values with
      | none => some []
      | some (d, c, cs, values) =>
          if c = '%' then (apply fuel cs values).map (d.padded 1 ['%'] ++ ·)
          else if c = 'n' then apply fuel cs values
          else if longest < d.width ∨ longest < d.precision.getD 0 then none
          else
            match d.write? c values.head? with
            | some text => (apply fuel cs (values.drop 1)).map (text ++ ·)
            | none => some []
  | fuel + 1, c :: cs => (apply fuel cs values).map (c :: ·)

end Directive

/-- The text of a double with so many significant digits, from which it can be read back. -/
def realLiteral (x : Binary64) : String :=
  let with15 := String.ofList (Directive.real { Directive.plain with
    full := true, zeros := true, precision := some 15 } 'g' x)
  let readsBack : Bool := match Numeral.entire? with15.toList with
    | some n => n.nearest == x || n.nearest.isZero && x.isZero
    | none => false
  if readsBack then with15
  else String.ofList (Directive.real { Directive.plain with
    full := true, zeros := true, precision := some 20 } 'e' x)

end RowPolicy.Sql
