import RowPolicy.Json
import RowPolicy.Text.Hex

/-!
# Reading JSON

Besides plain JSON the looser forms are read: comments, more kinds of blanks, names without
quotes, single quotes, commas at the end, hexadecimal integers, and numbers that begin or
end with a point. It is noted whether anything but plain JSON occurred. Where a text is no
JSON, the length of what had not been read is told.
-/

namespace RowPolicy.Json

/-- What was read of a text: a value, whether it is plain JSON, and the rest. -/
abbrev Found (α : Type) := α × Bool × List Char

/-- The failure to read what stands in front of some characters. -/
def failAt {α : Type} (cs : List Char) : Except Nat α := .error cs.length

/-- The blanks of plain JSON. -/
def isBlank (c : Char) : Bool := c = ' ' || c = '\t' || c = '\n' || c = '\r'

/-- Further blanks. -/
def isLooseBlank (c : Char) : Bool :=
  let n := c.toNat
  n = 11 || n = 12 || n = 0xa0 || n = 0x1680 || (0x2000 ≤ n && n ≤ 0x200a) || n = 0x2028
    || n = 0x2029 || n = 0x202f || n = 0x205f || n = 0x3000 || n = 0xfeff

/-- What follows a comment whose first two characters were taken away; nothing if it is not
closed. -/
def closed? : List Char → Option (List Char)
  | '*' :: '/' :: cs => some cs
  | _ :: cs => closed? cs
  | [] => none

/-- What follows blanks and comments, and whether all of them were plain. -/
def unblanked (fuel : Nat) (plain : Bool) (cs : List Char) : Bool × List Char :=
  match fuel, cs with
  | fuel + 1, '/' :: '*' :: rest =>
      match closed? rest with
      | some rest => unblanked fuel false rest
      | none => (plain, cs)
  | fuel + 1, '/' :: '/' :: rest =>
      let isEnd (c : Char) : Bool := c = '\n' || c = '\r' || c.toNat = 0x2028 || c.toNat = 0x2029
      unblanked fuel false (rest.dropWhile fun c => !isEnd c)
  | fuel + 1, c :: rest =>
      if isBlank c then unblanked fuel plain rest
      else if isLooseBlank c then unblanked fuel false rest
      else (plain, cs)
  | _, cs => (plain, cs)

/-- What follows blanks and comments. -/
def skip (cs : List Char) : Bool × List Char := unblanked (cs.length + 1) true cs

/-- Whether a text begins with four hexadecimal digits. -/
def hasHex (count : Nat) (cs : List Char) : Bool :=
  (cs.take count).length = count && (cs.take count).all fun c => (Text.hexDigit? c).isSome

/-- The number of characters of an escape behind its backslash, with the form that it
makes of a text. -/
def escape? : List Char → Option (Nat × TextForm)
  | [] => none
  | c :: cs =>
      if ['"', '\\', '/', 'b', 'f', 'n', 'r', 't'].contains c then some (1, .escaped)
      else if c = 'u' then if hasHex 4 cs then some (1, .escaped) else none
      else if c = 'x' then if hasHex 2 cs then some (1, .loose) else none
      else if c = '\r' then some (if cs.head? = some '\n' then 2 else 1, .loose)
      else if c = '\'' || c = 'v' || c = '0' || c = '\n' || c.toNat = 0x2028
          || c.toNat = 0x2029 then
        some (1, .loose)
      else none

/-- The form of a text in which a part of a form occurs. -/
def TextForm.with (before part : TextForm) : TextForm :=
  if part = .loose then .loose else if before = .plain then part else before

/-- A text up to a quote: its form, its characters in reverse, and the rest. -/
def textUpTo (fuel : Nat) (quote : Char) (form : TextForm) (taken : List Char) (cs : List Char) :
    Except Nat (TextForm × List Char × List Char) :=
  match fuel, cs with
  | 0, cs => failAt cs
  | _, [] => failAt []
  | fuel + 1, c :: cs =>
      if c = quote then .ok (form, taken, cs)
      else if c = '\\' then
        match escape? cs with
        | some (n, part) =>
            textUpTo fuel quote (TextForm.with form part) ((cs.take n).reverse ++ '\\' :: taken)
              (cs.drop n)
        | none => failAt cs
      else if c = '\x00' then failAt (c :: cs)
      else if c.toNat ≤ 0x1f || c = '"' then textUpTo fuel quote .loose (c :: taken) cs
      else textUpTo fuel quote form (c :: taken) cs

/-- A text behind its first quote. -/
def quotedText (quote : Char) (cs : List Char) : Except Nat (Found JsonText) := do
  let (form, taken, rest) ← textUpTo (cs.length + 1) quote .plain [] cs
  -- A double quote inside of single quotes is no reason to call a text loose by itself.
  return (⟨form, taken.reverse⟩, quote = '"' && form ≠ .loose, rest)

/-- Whether a character can be the first one of a name. -/
def isNameStart (c : Char) : Bool := c.isAlpha || c = '_' || c = '$' || 0x80 ≤ c.toNat

/-- Whether a character can stand inside of a name. -/
def isNamePart (c : Char) : Bool := (isNameStart c || c.isDigit) && !isLooseBlank c

/-- A name without quotes: its form and the rest. -/
def name? (fuel : Nat) (first : Bool) (form : TextForm) (taken : List Char) (cs : List Char) :
    TextForm × List Char × List Char :=
  match fuel, cs with
  | fuel + 1, '\\' :: 'u' :: rest =>
      if hasHex 4 rest then
        name? fuel false .escaped ((rest.take 4).reverse ++ 'u' :: '\\' :: taken) (rest.drop 4)
      else (form, taken, cs)
  | fuel + 1, c :: rest =>
      if (if first then isNameStart c else isNamePart c) then
        name? fuel false form (c :: taken) rest
      else (form, taken, cs)
  | _, cs => (form, taken, cs)

/-- Whether a text begins with a word, which no letter or digit follows. -/
def wordLength? (exactly : Bool) (cs : List Char) (word : String) : Bool :=
  let front := cs.take word.length
  (if exactly then front == word.toList
    else front.map Char.toLower == word.toList.map Char.toLower)
    && !((cs.drop word.length).head?.map Char.isAlphanum).getD false

/-- The digits of a number behind its first character, with whether a point or an exponent
occurred, and whether the number is plain. -/
def digitsOf (fuel : Nat) (isReal seen plain : Bool) (taken : List Char) (cs : List Char) :
    Except Nat (Bool × Bool × List Char × List Char) :=
  let endsPlain : Option Bool :=
    match taken with
    | '.' :: d :: _ => if d.isDigit then some false else none
    | c :: _ => if c.isDigit then some plain else none
    | [] => none
  match fuel, cs with
  | 0, cs => failAt cs
  | fuel + 1, '.' :: rest =>
      if isReal then failAt cs else digitsOf fuel true seen plain ('.' :: taken) rest
  | fuel + 1, c :: rest =>
      if c.isDigit then digitsOf fuel isReal seen plain (c :: taken) rest
      else if c = 'e' || c = 'E' then
        match endsPlain with
        | none => failAt cs
        | some plain =>
            if seen then failAt cs
            else
              let (mark, digits) := match rest with
                | '+' :: digits => ([c, '+'], digits)
                | '-' :: digits => ([c, '-'], digits)
                | digits => ([c], digits)
              if (digits.head?.map Char.isDigit).getD false then
                digitsOf fuel true true plain (mark.reverse ++ taken) digits
              else failAt (cs.drop (mark.length - 1))
      else
        match endsPlain with
        | some plain => .ok (isReal, plain, taken, cs)
        | none => failAt cs
  | _, [] =>
      match endsPlain with
      | some plain => .ok (isReal, plain, taken, [])
      | none => failAt []

/-- A decimal number behind the characters that were taken already. -/
def decimal (isReal plain : Bool) (taken cs : List Char) : Except Nat (Found Json) := do
  let (isReal, plain, taken, rest) ← digitsOf (cs.length + 1) isReal false plain taken cs
  let written := taken.reverse
  return (if isReal then real plain written else whole plain written, plain, rest)

/-- A hexadecimal number behind its mark. -/
def hexadecimal (mark cs : List Char) : Json × Bool × List Char :=
  let isHex (c : Char) : Bool := (Text.hexDigit? c).isSome
  (whole false (mark ++ cs.takeWhile isHex), false, cs.dropWhile isHex)

/-- A number. -/
def number (cs : List Char) : Except Nat (Found Json) :=
  let isDigitAt (n : Nat) : Bool := ((cs.drop n).head?.map Char.isDigit).getD false
  let unsigned (sign : List Char) (cs : List Char) : Except Nat (Found Json) :=
    match cs with
    | '0' :: x :: rest =>
        if (x = 'x' || x = 'X') && hasHex 1 rest then .ok (hexadecimal (sign ++ ['0', x]) rest)
        else if x.isDigit then failAt (if sign.isEmpty then x :: rest else cs)
        else decimal false true ('0' :: sign) (x :: rest)
    | c :: rest => decimal false true (c :: sign) rest
    | [] => failAt []
  match cs with
  | '.' :: rest =>
      if isDigitAt 1 then
        (decimal true false ['.'] rest).map fun (value, _, rest) =>
          (match value with
            | real _ written => real false written
            | other => other, false, rest)
      else failAt cs
  | sign :: rest =>
      if sign = '-' || sign = '+' then
        let written : List Char := if sign = '-' then ['-'] else []
        let loosened (r : Except Nat (Found Json)) : Except Nat (Found Json) :=
          r.map fun (value, plain, rest) => (value, plain && sign = '-', rest)
        if isDigitAt 1 then loosened (unsigned written rest)
        else if (rest.take 3).map Char.toLower == ['i', 'n', 'f'] then
          let length :=
            if ((rest.drop 3).take 5).map Char.toLower == "inity".toList then 8 else 3
          .ok (real true (written ++ "9e999".toList), false, rest.drop length)
        else if rest.head? = some '.' then
          (decimal true false ('.' :: written) (rest.drop 1)).map fun (value, _, rest) =>
            (match value with
              | real _ written => real false written
              | other => other, false, rest)
        else failAt cs
      else unsigned [] cs
  | [] => failAt []

/-- The greatest depth of nested values. -/
def depthLimit : Nat := 1000

mutual

/-- A value behind blanks. -/
def value (fuel depth : Nat) (cs : List Char) : Except Nat (Found Json) := do
  match fuel with
  | 0 => failAt cs
  | fuel + 1 =>
      let (plain, cs) := skip cs
      let (v, isPlain, rest) ← match cs with
        | [] => failAt []
        | '{' :: rest =>
            if depthLimit ≤ depth then failAt cs
            else do
              let (members, isPlain, rest) ← members fuel (depth + 1) [] rest
              pure (object members, isPlain, rest)
        | '[' :: rest =>
            if depthLimit ≤ depth then failAt cs
            else do
              let (items, isPlain, rest) ← items fuel (depth + 1) [] rest
              pure (array items, isPlain, rest)
        | '"' :: rest =>
            let (t, isPlain, rest) ← quotedText '"' rest
            pure (text t, isPlain, rest)
        | '\'' :: rest =>
            let (t, _, rest) ← quotedText '\'' rest
            pure (text t, false, rest)
        | c :: _ =>
            if c.isDigit || c = '-' || c = '+' || c = '.' then number cs
            else if wordLength? true cs "true" then pure (truth true, true, cs.drop 4)
            else if wordLength? true cs "false" then pure (truth false, true, cs.drop 5)
            else if wordLength? true cs "null" then pure (null, true, cs.drop 4)
            else if wordLength? false cs "inf" then
              pure (real true "9e999".toList, false, cs.drop 3)
            else if wordLength? false cs "infinity" then
              pure (real true "9e999".toList, false, cs.drop 8)
            else if wordLength? false cs "nan" then pure (null, false, cs.drop 3)
            else if wordLength? false cs "qnan" || wordLength? false cs "snan" then
              pure (null, false, cs.drop 4)
            else failAt cs
      return (v, plain && isPlain, rest)

/-- The items of an array behind those that were read already. -/
def items (fuel depth : Nat) (before : List Json) (cs : List Char) :
    Except Nat (Found (List Json)) := do
  match fuel with
  | 0 => failAt cs
  | fuel + 1 =>
      let (blank, start) := skip cs
      match start with
      | [] => failAt cs
      | ']' :: rest => return (before.reverse, blank && before.isEmpty, rest)
      | _ =>
          let (v, isPlain, rest) ← value fuel depth start
          let (between, rest) := skip rest
          let plain := blank && isPlain && between
          match rest with
          | ',' :: rest =>
              let (all, isPlain, rest) ← items fuel depth (v :: before) rest
              return (all, plain && isPlain, rest)
          | ']' :: rest => return ((v :: before).reverse, plain, rest)
          | rest => failAt rest

/-- The members of an object behind those that were read already. -/
def members (fuel depth : Nat) (before : List (JsonText × Json)) (cs : List Char) :
    Except Nat (Found (List (JsonText × Json))) := do
  match fuel with
  | 0 => failAt cs
  | fuel + 1 =>
      let (blank, start) := skip cs
      match start with
      | '}' :: rest => return (before.reverse, blank && before.isEmpty, rest)
      | _ =>
          let (label, isPlain, rest) ← match value fuel depth start with
            | .ok (text t, isPlain, rest) => pure (t, isPlain, rest)
            | .ok _ => failAt start
            | .error n =>
                match name? (start.length + 1) true .plain [] start with
                | (_, [], _) => .error n
                | (form, taken, rest) => pure (⟨form, taken.reverse⟩, false, rest)
          let (between, rest) := skip rest
          match rest with
          | ':' :: rest =>
              let (v, valuePlain, rest) ← value fuel depth rest
              let (after, rest) := skip rest
              let plain := blank && isPlain && between && valuePlain && after
              match rest with
              | ',' :: rest =>
                  let (all, isPlain, rest) ← members fuel depth ((label, v) :: before) rest
                  return (all, plain && isPlain, rest)
              | '}' :: rest => return (((label, v) :: before).reverse, plain, rest)
              | rest => failAt rest
          | rest => failAt rest

end

/-- The value that a text is, and whether it is plain JSON. If it is none, the place of the
failure is told, counted from one; what follows a whole value counts as a failure of all. -/
def ofChars (cs : List Char) : Except Nat (Json × Bool) :=
  let cs := cs.takeWhile (· ≠ '\x00')
  match value (2 * cs.length + 2) 0 cs with
  | .error n => .error (if (skip cs).2.isEmpty then 1 else cs.length - n + 1)
  | .ok (v, plain, rest) =>
      let (blank, rest) := skip rest
      if rest.isEmpty then .ok (v, plain && blank) else .error 1

/-- The value that a text is. -/
def ofChars? (cs : List Char) : Option Json := (ofChars cs).toOption.map Prod.fst

end RowPolicy.Json
