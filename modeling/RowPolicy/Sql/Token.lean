import RowPolicy.Sql.Affinity
import RowPolicy.Text.Hex

/-!
# Tokens

The text of a condition is a sequence of tokens between spaces and comments. Names may
be quoted in three ways and texts in one; a quote inside is doubled. Every value that
the statement receives from outside has a place holder, which may carry a number or a
name. A text ends at the first semicolon.
-/

namespace RowPolicy.Sql

/-- A token. -/
inductive Token where
  /-- A keyword or a name. -/
  | word (s : String)
  /-- A quoted name; one in double quotes may also be a text. -/
  | name (s : String) (mayBeText : Bool)
  | literal (value : Scalar)
  /-- The place holder of a value, with its label and its place among all values; the
  place is zero as long as it is not known. -/
  | parameter (label : String) (place : Nat)
  | symbol (s : String)
  deriving DecidableEq

namespace Token

/-- Characters of names: letters and digits, the underscore, the dollar sign, and
everything beyond the basic alphabet. -/
def isNameChar (c : Char) : Bool := c.isAlphanum || c == '_' || c == '$' || 128 ≤ c.toNat

/-- Characters between tokens. -/
def isSpace (c : Char) : Bool := c == ' ' || c == '\t' || c == '\n' || c == '\r' || c.toNat == 12

/-- What follows a comment. -/
def afterComment : List Char → List Char
  | '*' :: '/' :: cs => cs
  | _ :: cs => afterComment cs
  | [] => []

/-- What stands in front of a closing quote, and what follows it. -/
def quotedBody? (quote : Char) : List Char → Option (List Char × List Char)
  | [] => none
  | [c] => if c = quote then some ([], []) else none
  | c :: d :: cs =>
      if c = quote then
        if d = quote then (quotedBody? quote cs).map fun (body, rest) => (quote :: body, rest)
        else some ([], d :: cs)
      else (quotedBody? quote (d :: cs)).map fun (body, rest) => (c :: body, rest)

/-- The front of a text that consists of digits and underscores, and what follows it. -/
def digitRun (isDigit : Char → Bool) (cs : List Char) : List Char × List Char :=
  (cs.takeWhile fun c => isDigit c || c == '_', cs.dropWhile fun c => isDigit c || c == '_')

/-- Digits without the underscores between them; an underscore must stand between two
digits. -/
def withoutMarks? (isDigit : Char → Bool) (before : Bool) : List Char → Option (List Char)
  | [] => some []
  | '_' :: c :: cs =>
      if before && isDigit c then (withoutMarks? isDigit true cs).map (c :: ·) else none
  | ['_'] => none
  | c :: cs => (withoutMarks? isDigit (isDigit c) cs).map (c :: ·)

/-- The integer that a run of hexadecimal digits stands for. -/
def hexInteger? (digits : List Char) : Option Scalar := do
  let digits ← withoutMarks? (fun c => (Text.hexDigit? c).isSome) false digits
  let significant := digits.dropWhile (· == '0')
  if 16 < significant.length then none
  else
    let n := significant.foldl (fun n c => 16 * n + (Text.hexDigit? c).getD 0) 0
    some (.int (BitVec.ofNat 64 n).toInt)

/-- The decimal number in front of a text, and what follows it. -/
def decimal? (cs : List Char) : Option (Scalar × List Char) := do
  let (whole, rest) := digitRun Char.isDigit cs
  let (fraction, rest) := match rest with
    | '.' :: rest => ('.' :: (digitRun Char.isDigit rest).1, (digitRun Char.isDigit rest).2)
    | rest => ([], rest)
  let (exponent, rest) := match rest with
    | mark :: sign :: cs =>
        let signed := sign == '+' || sign == '-'
        let digits := if signed then cs else sign :: cs
        if (mark == 'e' || mark == 'E') && digits.head?.any Char.isDigit then
          let (run, rest) := digitRun Char.isDigit digits
          (mark :: (if signed then sign :: run else run), rest)
        else ([], mark :: sign :: cs)
    | rest => ([], rest)
  let written ← withoutMarks? Char.isDigit false (whole ++ fraction ++ exponent)
  let number ← Numeral.leadingUnsigned? written
  return (Scalar.ofNumeral number, rest)

/-- The number in front of a text, and what follows it. -/
def number? : List Char → Option (Scalar × List Char)
  | '0' :: x :: cs =>
      let isDigit (c : Char) : Bool := (Text.hexDigit? c).isSome
      if (x == 'x' || x == 'X') && cs.head?.any isDigit then
        let (digits, rest) := digitRun isDigit cs
        (hexInteger? digits).map (·, rest)
      else decimal? ('0' :: x :: cs)
  | cs => decimal? cs

/-- The label of a place holder behind its first character, and what follows it. Doubled
colons and a final part in parentheses belong to it. -/
def label? : List Char → Option (List Char × List Char)
  | ':' :: ':' :: cs => (label? cs).map fun (label, rest) => (':' :: ':' :: label, rest)
  | '(' :: cs =>
      let inner := cs.takeWhile fun c => !isSpace c && c != ')'
      match cs.dropWhile fun c => !isSpace c && c != ')' with
      | ')' :: rest => some ('(' :: inner ++ [')'], rest)
      | _ => none
  | c :: cs =>
      if isNameChar c then (label? cs).map fun (label, rest) => (c :: label, rest)
      else some ([], c :: cs)
  | [] => some ([], [])

/-- The place holder in front of a text that starts with `mark`, and what follows it. -/
def parameter? (mark : Char) (cs : List Char) : Option (Token × List Char) := do
  if mark == '#' && cs.head?.any Char.isDigit then none
  else if cs.any isNameChar && cs.head? != some '(' then
    let (label, rest) ← label? cs
    if label.any isNameChar then some (parameter (String.ofList (mark :: label)) 0, rest) else none
  else none

/-- The place holder with a number or without, and what follows it. Numbers start at one
and are limited. -/
def numbered? (cs : List Char) : Option (Token × List Char) :=
  let digits := cs.takeWhile Char.isDigit
  let token := parameter (String.ofList digits) 0
  match Numeral.digits? digits with
  | none => some (token, cs)
  | some n => if 1 ≤ n && n ≤ 32766 then some (token, cs.dropWhile Char.isDigit) else none

/-- The symbols, longer ones before their beginnings. -/
def symbols : List String :=
  ["->>", "->", "||", "<=", "<>", "<<", ">=", ">>", "==", "!=", "(", ")", "+", "-", "*", "/", "%",
    "=", "<", ">", "|", ",", "&", "~", "."]

/-- The symbol in front of a text, and what follows it. -/
def symbol? (cs : List Char) : Option (Token × List Char) :=
  (symbols.find? fun s => s.toList.isPrefixOf cs).map fun s => (symbol s, cs.drop s.length)

/-- The token in front of a text that starts with neither a space nor a comment, and
what follows it. -/
def next? : List Char → Option (Token × List Char)
  | [] => none
  | '\'' :: cs =>
      (quotedBody? '\'' cs).map fun (body, rest) => (literal (.str (String.ofList body)), rest)
  | '"' :: cs => (quotedBody? '"' cs).map fun (body, rest) => (name (String.ofList body) true, rest)
  | '`' :: cs =>
      (quotedBody? '`' cs).map fun (body, rest) => (name (String.ofList body) false, rest)
  | '[' :: cs =>
      match cs.dropWhile (· ≠ ']') with
      | _ :: rest => some (name (String.ofList (cs.takeWhile (· ≠ ']'))) false, rest)
      | [] => none
  | '?' :: cs => numbered? cs
  | c :: cs =>
      if c == ':' || c == '@' || c == '#' || c == '$' then parameter? c cs
      else if (c == 'x' || c == 'X') && cs.head? == some '\'' then do
        let (body, rest) ← quotedBody? '\'' (cs.drop 1)
        return (literal (.bytes (← Text.hexBytes? body)), rest)
      else if c.isDigit || (c == '.' && (cs.head?.any Char.isDigit)) then do
        let (value, rest) ← number? (c :: cs)
        if rest.head?.any isNameChar then none else some (literal value, rest)
      else if isNameChar c then
        some (word (String.ofList (c :: cs.takeWhile isNameChar)), cs.dropWhile isNameChar)
      else symbol? (c :: cs)

/-- A text without the spaces and comments in front of it, at most `fuel` of them. -/
def skip (fuel : Nat) (cs : List Char) : List Char :=
  match fuel, cs.dropWhile isSpace with
  | fuel + 1, '-' :: '-' :: cs => skip fuel (cs.dropWhile (· ≠ '\n'))
  | fuel + 1, '/' :: '*' :: c :: cs => skip fuel (afterComment (c :: cs))
  | _, cs => cs

/-- A text without all spaces and comments in front of it. -/
def skipped (cs : List Char) : List Char := skip cs.length cs

end Token

/-- A token as it is written, with the spaces and comments in front of it. -/
structure Lexeme where
  token : Token
  gap : List Char
  text : List Char

namespace Lexeme

/-- What was taken from the front of a text, given what is left of it. -/
def taken (cs rest : List Char) : List Char := cs.take (cs.length - rest.length)

/-- The tokens of a text up to the first semicolon, and what follows the semicolon; at
most `fuel` tokens. -/
def scan (fuel : Nat) (cs : List Char) : Option (List Lexeme × List Char) :=
  match fuel, Token.skipped cs with
  | _, [] => some ([], [])
  | _, ';' :: rest => some ([], rest)
  | 0, _ => none
  | fuel + 1, start => do
      let (token, rest) ← Token.next? start
      let (lexemes, after) ← scan fuel rest
      return (⟨token, taken cs start, taken start rest⟩ :: lexemes, after)

/-- Give every place holder its place: one without label has the next place, a number is
a place itself, and a name has the same place wherever it occurs. -/
def placed (seen : List (String × Nat)) (count : Nat) : List Lexeme → List Lexeme
  | [] => []
  | ⟨.parameter label _, gap, text⟩ :: rest =>
      let known := (seen.find? fun entry => entry.1 == label).map Prod.snd
      let place :=
        if label.isEmpty then count + 1 else (known.or label.toNat?).getD (count + 1)
      let seen := if label.isEmpty then seen else (label, place) :: seen
      ⟨.parameter label place, gap, text⟩ :: placed seen (Nat.max count place) rest
  | lexeme :: rest => lexeme :: placed seen count rest

/-- The number of values that some tokens have places for. -/
def valueCount (lexemes : List Lexeme) : Nat :=
  lexemes.foldl (fun count lexeme => match lexeme.token with
    | .parameter _ place => Nat.max count place
    | _ => count) 0

/-- The text of some tokens, without spaces around it. -/
def written (lexemes : List Lexeme) (next : Option Lexeme) : String :=
  let isSpace := Token.isSpace
  let cs := lexemes.flatMap (fun l => l.gap ++ l.text) ++ (next.map Lexeme.gap).getD []
  String.ofList ((cs.dropWhile isSpace).reverse.dropWhile isSpace).reverse

/-- The tokens of a text up to the first semicolon, and whether there is anything behind
it. -/
def ofText? (s : String) : Option (List Lexeme × Bool) :=
  (scan s.length s.toList).map fun (lexemes, rest) =>
    (placed [] 0 lexemes, !(Token.skipped rest).isEmpty)

end Lexeme

end RowPolicy.Sql
