import RowPolicy.Json
import RowPolicy.Text.Hex

/-!
# Writing JSON

A value is written as plain JSON, without blanks or over several lines. What is written
loosely gets its plain form; all else stays as it is.
-/

namespace RowPolicy

namespace JsonText

/-- A control character as JSON escapes it. -/
def control (c : Char) : List Char :=
  match c with
  | '\x08' => ['\\', 'b']
  | '\x0c' => ['\\', 'f']
  | '\n' => ['\\', 'n']
  | '\r' => ['\\', 'r']
  | '\t' => ['\\', 't']
  | c => '\\' :: 'u' :: Text.hexDigits 4 c.toNat

/-- A character of a text that has to be escaped. -/
def escaped (c : Char) : List Char :=
  if c = '"' || c = '\\' then ['\\', c] else if c.toNat ≤ 0x1f then control c else [c]

/-- A loosely written text with the escapes of plain JSON. -/
def tightened (fuel : Nat) (cs : List Char) : List Char :=
  match fuel, cs with
  | fuel + 1, '\\' :: c :: rest =>
      match c, rest with
      | '\'', rest => '\'' :: tightened fuel rest
      | 'v', rest => "\\u000b".toList ++ tightened fuel rest
      | 'x', a :: b :: rest => "\\u00".toList ++ a :: b :: tightened fuel rest
      | '0', rest => "\\u0000".toList ++ tightened fuel rest
      | '\r', '\n' :: rest => tightened fuel rest
      | '\r', rest => tightened fuel rest
      | '\n', rest => tightened fuel rest
      | c, rest =>
          if c.toNat = 0x2028 || c.toNat = 0x2029 then tightened fuel rest
          else '\\' :: c :: tightened fuel rest
  | fuel + 1, c :: rest =>
      (if c = '"' then ['\\', '"'] else if c.toNat ≤ 0x1f then control c else [c])
        ++ tightened fuel rest
  | _, _ => []

/-- A text in quotes. -/
def quoted (t : JsonText) : List Char :=
  let body := match t.form with
    | .plain | .escaped => t.written
    | .loose => tightened (t.written.length + 1) t.written
    | .raw => t.written.flatMap escaped
  '"' :: body ++ ['"']

/-- The value of four hexadecimal digits in front of a text. -/
def hexValue (cs : List Char) : Nat := cs.foldl (fun n c => 16 * n + (Text.hexDigit? c).getD 0) 0

/-- A character by its number. -/
def ofCode (n : Nat) : Char := if n < 0xd800 ∨ 0xdfff < n then Char.ofNat n else '\ufffd'

/-- The characters that a written text stands for. -/
def unescaped (fuel : Nat) (cs : List Char) : List Char :=
  match fuel, cs with
  | fuel + 1, '\\' :: 'u' :: rest =>
      let first := hexValue (rest.take 4)
      let rest := rest.drop 4
      let second := hexValue ((rest.drop 2).take 4)
      if 0xd800 ≤ first ∧ first < 0xdc00 ∧ rest.take 2 = ['\\', 'u'] ∧ 0xdc00 ≤ second
          ∧ second < 0xe000 then
        ofCode (0x10000 + (first - 0xd800) * 1024 + (second - 0xdc00)) ::
          unescaped fuel (rest.drop 6)
      else ofCode first :: unescaped fuel rest
  | fuel + 1, '\\' :: c :: rest =>
      match c, rest with
      | 'b', rest => '\x08' :: unescaped fuel rest
      | 'f', rest => '\x0c' :: unescaped fuel rest
      | 'n', rest => '\n' :: unescaped fuel rest
      | 'r', rest => '\r' :: unescaped fuel rest
      | 't', rest => '\t' :: unescaped fuel rest
      | 'v', rest => '\x0b' :: unescaped fuel rest
      | '0', rest => '\x00' :: unescaped fuel rest
      | 'x', rest => ofCode (hexValue (rest.take 2)) :: unescaped fuel (rest.drop 2)
      | '\r', '\n' :: rest => unescaped fuel rest
      | '\r', rest => unescaped fuel rest
      | '\n', rest => unescaped fuel rest
      | c, rest =>
          if c.toNat = 0x2028 || c.toNat = 0x2029 then unescaped fuel rest
          else c :: unescaped fuel rest
  | fuel + 1, c :: rest => c :: unescaped fuel rest
  | _, _ => []

/-- The characters of a text. -/
def chars (t : JsonText) : List Char :=
  match t.form with
  | .plain | .raw => t.written
  | .escaped | .loose => unescaped (t.written.length + 1) t.written

/-- Whether two texts have the same characters. -/
def same (a b : JsonText) : Bool := a.chars == b.chars

end JsonText

namespace Json

/-- The digits of an integer in hexadecimal digits, which may be too large. -/
def wholeText (written : List Char) : List Char :=
  let negative := written.head? = some '-'
  let digits := (if negative then written.drop 1 else written).drop 2
  let n := JsonText.hexValue digits
  let text := if n < Nat.pow 2 64 then (toString n).toList else "9.0e999".toList
  if negative then '-' :: text else text

/-- A number with the digits that lack beside its point. -/
def completed : Bool → List Char → List Char
  | _, [] => []
  | isFirst, '.' :: rest =>
      (if isFirst then ['0', '.'] else ['.'])
        ++ (if (rest.head?.map Char.isDigit).getD false then [] else ['0']) ++ completed false rest
  | isFirst, c :: rest => c :: completed (isFirst && c = '-') rest

mutual

/-- A value without blanks. -/
def compact : Json → List Char
  | null => ['n', 'u', 'l', 'l']
  | truth b => if b then ['t', 'r', 'u', 'e'] else ['f', 'a', 'l', 's', 'e']
  | whole plain written => if plain then written else wholeText written
  | real plain written => if plain then written else completed true written
  | text t => t.quoted
  | array items => '[' :: compactItems items ++ [']']
  | object members => '{' :: compactMembers members ++ ['}']

/-- Values with commas in between. -/
def compactItems : List Json → List Char
  | [] => []
  | v :: rest => compact v ++ (if rest.isEmpty then [] else [',']) ++ compactItems rest

/-- Members with commas in between. -/
def compactMembers : List (JsonText × Json) → List Char
  | [] => []
  | (label, v) :: rest =>
      label.quoted ++ ':' :: compact v ++ (if rest.isEmpty then [] else [','])
        ++ compactMembers rest

end

mutual

/-- A value with one line for every item, indented by its depth. -/
def pretty (indent : List Char) (depth : Nat) : Json → List Char
  | array items =>
      if items.isEmpty then ['[', ']']
      else
        '[' :: '\n' :: prettyItems indent (depth + 1) items
          ++ '\n' :: (List.replicate depth indent).flatten ++ [']']
  | object members =>
      if members.isEmpty then ['{', '}']
      else
        '{' :: '\n' :: prettyMembers indent (depth + 1) members
          ++ '\n' :: (List.replicate depth indent).flatten ++ ['}']
  | v => v.compact

/-- Values on lines of their own. -/
def prettyItems (indent : List Char) (depth : Nat) : List Json → List Char
  | [] => []
  | v :: rest =>
      (List.replicate depth indent).flatten ++ pretty indent depth v
        ++ (if rest.isEmpty then [] else [',', '\n']) ++ prettyItems indent depth rest

/-- Members on lines of their own. -/
def prettyMembers (indent : List Char) (depth : Nat) : List (JsonText × Json) → List Char
  | [] => []
  | (label, v) :: rest =>
      (List.replicate depth indent).flatten ++ label.quoted ++ ':' :: ' ' ::
        pretty indent depth v ++ (if rest.isEmpty then [] else [',', '\n'])
        ++ prettyMembers indent depth rest

end

end Json

end RowPolicy
