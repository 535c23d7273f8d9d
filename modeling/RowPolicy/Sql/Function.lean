import RowPolicy.Sql.EvalError
import RowPolicy.Sql.Function.Format
import RowPolicy.Sql.Function.Json
import RowPolicy.Sql.Function.Moment
import RowPolicy.Sql.Function.Real
import RowPolicy.Sql.Term
import RowPolicy.Text.Pattern.Reader

/-!
# Functions on cells

The functions that a statement can call, each with its names and the numbers of
arguments it takes. Positions in texts count from one; a negative position counts from
the end.
-/

namespace RowPolicy.Sql

/-- A function of cells. -/
inductive Function where
  | abs
  | byteLength
  | char
  | coalesce
  | concat
  /-- All texts with the first one between them. -/
  | concatWith
  /-- A value that depends on nothing. -/
  | fixed (value : Scalar)
  | format
  | glob
  | hex
  /-- A hint that changes nothing. -/
  | hint
  /-- The first value, or the second one if it is missing. -/
  | ifNull
  | instr
  | json (f : JsonFunction) (binary : Bool)
  | length
  | like
  | likelihood
  | lower
  | max
  | min
  | moment (f : MomentFunction)
  | nullIf
  /-- Whether a pattern occurs in a text. -/
  | occurs
  | quote
  | real (f : RealFunction)
  | replace
  | round
  | sign
  | substring
  | trim (left right : Bool)
  | typeOf
  | unhex
  | unicode
  | upper
  /-- A function that cannot be called where it is. -/
  | unusable
  | zeros (least : Nat)
  deriving DecidableEq

namespace Function

/-- The names of the functions on any cells, in lower case, with the least and the greatest
number of arguments. -/
def common : List (String × Function × Nat × Option Nat) :=
  [("abs", abs, 1, some 1), ("char", char, 0, none), ("coalesce", coalesce, 2, none),
    ("concat", concat, 1, none), ("concat_ws", concatWith, 2, none),
    ("changes", fixed (.int 1), 0, some 0), ("format", format, 0, none),
    ("glob", glob, 2, some 2), ("hex", hex, 1, some 1), ("ifnull", ifNull, 2, some 2),
    ("instr", instr, 2, some 2), ("last_insert_rowid", fixed (.int 7), 0, some 0),
    ("length", length, 1, some 1), ("like", like, 2, some 3),
    ("likelihood", likelihood, 2, some 2), ("likely", hint, 1, some 1),
    ("load_extension", unusable, 1, some 2), ("lower", lower, 1, some 1),
    ("ltrim", trim true false, 1, some 2), ("match", unusable, 2, some 2), ("max", max, 2, none),
    ("min", min, 2, none), ("nullif", nullIf, 2, some 2),
    ("octet_length", byteLength, 1, some 1), ("printf", format, 0, none),
    ("quote", quote, 1, some 1), ("random", fixed (.int 4159265358979323846), 0, some 0),
    ("randomblob", zeros 1, 1, some 1), ("regexp", occurs, 2, some 2),
    ("replace", replace, 3, some 3), ("round", round, 1, some 2),
    ("rtrim", trim false true, 1, some 2), ("sign", sign, 1, some 1),
    ("sqlite_source_id", fixed (.str sourceId), 0, some 0),
    ("sqlite_version", fixed (.str "3.46.0"), 0, some 0), ("substr", substring, 2, some 3),
    ("substring", substring, 2, some 3), ("total_changes", fixed (.int 29), 0, some 0),
    ("trim", trim true true, 1, some 2), ("typeof", typeOf, 1, some 1),
    ("unhex", unhex, 1, some 2), ("unicode", unicode, 1, some 1),
    ("unlikely", hint, 1, some 1), ("upper", upper, 1, some 1),
    ("zeroblob", zeros 0, 1, some 1)]
where
  /-- The text that tells the state of the language. -/
  sourceId : String :=
    "2024-05-23 13:25:27 96c92aba00c8375bc32fafcdf12429c58bd8aabfcadab6683e35bbb9cdebf19e"

/-- The greatest number of arguments of any function. -/
def mostArguments : Nat := 127

/-- The function with the given name, in lower case, and whether it can be called with so many
arguments. -/
def ofName? (name : String) (count : Nat) : Option (Function × Bool) :=
  let found : Option (Function × Bool) :=
    ((common.find? fun entry => entry.1 == name).map fun (_, f, least, most) =>
        (f, decide (least ≤ count) && most.all (count ≤ ·)))
      |>.or ((RealFunction.names.find? fun entry => entry.1 == name).map fun (_, f) =>
        (real f, f.accepts count))
      |>.or ((MomentFunction.names.find? fun entry => entry.1 == name).map fun (_, f) =>
        (moment f, f.accepts count))
      |>.or ((JsonFunction.names.find? fun entry => entry.1 == name).map fun (_, f) =>
        (json f false, f.accepts count))
      |>.or ((JsonFunction.binaryNames.find? fun entry => entry.1 == name).map fun (_, f) =>
        (json f true, f.accepts count))
  found.map fun (f, accepted) => (f, accepted && decide (count ≤ mostArguments))

/-- Whether a function can be called with arguments that are written in this way. A likelihood
is written as a number between zero and one. -/
def allows (args : List Term) : Function → Bool
  | likelihood =>
      match args with
      | [_, .literal (.float x)] => x.value?.any (· ≤ 1)
      | _ => false
  | _ => true

/-- The characters of a cell. -/
def chars (cell : Scalar) : List Char := cell.cellText.toList

/-- A text of some characters. -/
def ofChars (cs : List Char) : Scalar := .str (String.ofList cs)

/-- The part of a list from a position on. A negative count asks for the elements in
front of the position. -/
def slice {α : Type} (items : List α) (position count : Int) : List α :=
  let start := if position < 0 then position + items.length else position - 1
  let (first, last) := if count < 0 then (start + count, start) else (start, start + count)
  let (first, last) :=
    if position = 0 ∧ 0 ≤ count then ((0 : Int), count - 1) else (first, last)
  (items.take last.toNat).drop first.toNat

/-- The first place where a part occurs in a list, counted from one; zero if it occurs
nowhere. -/
def placeOf {α : Type} [BEq α] (part : List α) (items : List α) : Nat :=
  match (Text.suffixes items).findIdx? part.isPrefixOf with
  | some n => n + 1
  | none => 0

/-- Replace every occurrence of a part, from left to right; `skip` characters belong to
an occurrence already replaced. -/
def replaced (part new : List Char) (skip : Nat) : List Char → List Char
  | [] => []
  | c :: cs =>
      match skip with
      | skip + 1 => replaced part new skip cs
      | 0 =>
          if part.isPrefixOf (c :: cs) then new ++ replaced part new (part.length - 1) cs
          else c :: replaced part new 0 cs

/-- A double rounded to some places, as it is written with them. Without places a half is added
to it, and its fraction is dropped. -/
def roundedTo (places : Nat) (x : Binary64) : Scalar :=
  match x.value? with
  | none => .float x
  | some r =>
      if r < -4503599627370496 ∨ 4503599627370496 < r then .float x
      else if places = 0 then
        let shifted := Binary64.ofRat (r + if r < 0 then -1 / 2 else 1 / 2)
        .float (.nearestInt (shifted.truncate?.getD 0))
      else
        let written := Directive.real { Directive.plain with
          full := true, precision := some places } 'f' x
        match Numeral.leading? written with
        | some n => .float n.nearest
        | none => .float x

/-- The bytes of a cell. -/
def bytesOf : Scalar → List UInt8
  | .bytes data => data
  | cell => cell.cellText.toUTF8.toList

/-- The character with a number; what is none is replaced. -/
def charOf (n : Int) : Char :=
  if 0 ≤ n ∧ n < 0x110000 ∧ ¬(0xd800 ≤ n ∧ n < 0xe000) then Char.ofNat n.toNat
  else Char.ofNat 0xfffd

/-- The bytes that pairs of digits in base sixteen stand for, with characters of `skipped` between
the pairs. -/
def unhexed? (skipped : List Char) : List Char → Option (List UInt8)
  | [] => some []
  | c :: cs =>
      match Text.hexDigit? c, cs with
      | some high, d :: cs => do
          let low ← Text.hexDigit? d
          return UInt8.ofNat (16 * high + low) :: (← unhexed? skipped cs)
      | some _, [] => none
      | none, cs => if skipped.contains c then unhexed? skipped cs else none

/-- A cell as it is written in a statement. -/
def literalText : Scalar → String
  | .null => "NULL"
  | .float x => realLiteral x
  | .str s =>
      String.ofList ('\'' :: Directive.quoted '\'' (s.toList.takeWhile (· ≠ '\x00')) ++ ['\''])
  | .bytes data => "X'" ++ (Text.hexText data).toUpper ++ "'"
  | cell => cell.cellText

/-- The lesser or the greater one of two cells; a missing one decides. Of equal cells the second
one counts as the lesser. -/
def extreme (k : Collation) (greater : Bool) (a b : Scalar) : Scalar :=
  match (k.key b).cellOrder? (k.key a) with
  | some .gt => if greater then b else a
  | some .lt => if greater then a else b
  | some .eq => if greater then a else b
  | none => .null

/-- The values of functions whose arguments are all there. -/
def applyPresent (k : Collation) : Function → List Scalar → Scalar
  | abs, [x] =>
      let number := match x with
        | .str _ | .bytes _ => CastKind.real.cast x
        | x => x.number
      match number with
      | .int n => Arithmetic.whole n.natAbs
      | .float x => .float (if x.isZero then x else x.magnitude)
      | number => number
  | glob, [pattern, x] =>
      (Truth.ofBool (Wildcard.covers false (Wildcard.ofGlob (patternChars pattern))
        (patternChars x))).cell
  | hex, [x] => .str (Text.hexText (bytesOf x)).toUpper
  | instr, [.bytes data, .bytes part] => .int (placeOf part data)
  | instr, [x, part] => .int (placeOf (chars part) (chars x))
  | length, [.bytes data] => .int data.length
  | length, [x] => .int (patternChars x).length
  | like, [pattern, x] => (likeTest x pattern).cell
  | like, [pattern, x, escape] =>
      (Truth.ofBool (Wildcard.covers true
        (Wildcard.ofLike (chars escape).head? (patternChars pattern)) (patternChars x))).cell
  | lower, [x] => .str (x.cellText.map Char.toLower)
  | upper, [x] => .str (x.cellText.map Char.toUpper)
  | trim left right, x :: rest =>
      let set := match rest with
        | [cs] => chars cs
        | _ => [' ']
      let dropped := if left then (chars x).dropWhile set.contains else chars x
      ofChars (if right then (dropped.reverse.dropWhile set.contains).reverse else dropped)
  | max, x :: rest => rest.foldl (extreme k true) x
  | min, x :: rest => rest.foldl (extreme k false) x
  | replace, [x, part, new] =>
      if (chars part).isEmpty then x.asText
      else ofChars (replaced (chars part) (chars new) 0 (chars x))
  | round, x :: rest =>
      let places := match rest with
        | [n] => (Directive.short n.integerValue).toNat
        | _ => 0
      match CastKind.real.cast x with
      | .float x => roundedTo (Nat.min places 30) x
      | number => number
  | sign, [x] =>
      match x with
      | .str s =>
          match Numeral.entire? s.toList with
          | some n => .int (Scalar.ofNumeral n).sign
          | none => .null
      | .bytes _ => .null
      | x => .int x.sign
  | substring, x :: position :: rest =>
      let count := match rest with
        | [n] => Directive.short n.integerValue
        | _ => 1000000000
      let position := Directive.short position.integerValue
      match x with
      | .bytes data => .bytes (slice data position count)
      | x => ofChars (slice (chars x) position count)
  | unicode, [x] =>
      match patternChars x with
      | c :: _ => .int c.toNat
      | [] => .null
  | byteLength, [.bytes data] => .int data.length
  | byteLength, [x] => .int x.cellText.utf8ByteSize
  | unhex, x :: rest =>
      let skipped := (rest.head?.map patternChars).getD []
      match unhexed? skipped (patternChars x) with
      | some data => .bytes data
      | none => .null
  | _, _ => .null

/-- The text that a format makes of some cells. -/
def formatted (args : List Scalar) : Except EvalError Scalar :=
  match args with
  | [] | .null :: _ => .ok .null
  | written :: values =>
      let cs := patternChars written
      match Directive.apply (cs.length + 1) cs values with
      | none => .error .tooLong
      | some [] => .ok .null
      | some text => .ok (ofChars text)

/-- Whether a pattern occurs in a text. -/
def searched (pattern x : Scalar) : Except EvalError Scalar :=
  match x, pattern with
  | .null, _ => .ok .null
  | .str s, .str written =>
      match Text.Pattern.ofChars? written.toList with
      | some p => .ok (Truth.ofBool (p.occursIn s.toList)).cell
      | none => .error .argument
  | _, _ => .error .argument

/-- Texts one behind the other, with a separator in front of those that follow some text. -/
def joined (separator : String) (cells : List Scalar) : Scalar :=
  let texts := (cells.filter (· != .null)).map Scalar.cellText
  .str (texts.foldl (fun text next => if text.isEmpty then next else text ++ separator ++ next) "")

/-- The greatest number of bytes that are made of nothing. -/
def mostZeros : Int := 20000000

/-- The value of a function; texts are compared by a collation. -/
def apply (f : Function) (k : Collation) (args : List Scalar) : Except EvalError Scalar :=
  match f, args with
  | abs, [.int n] =>
      if n = -9223372036854775808 then .error .overflow else .ok (Arithmetic.whole n.natAbs)
  | like, [_, _, escape] =>
      if escape != .null && (chars escape).length ≠ 1 then .error .argument
      else if args.contains .null then .ok .null else .ok (like.applyPresent k args)
  | coalesce, args | ifNull, args => .ok ((args.find? (· != .null)).getD .null)
  | hint, args | likelihood, args => .ok (args.headD .null)
  | nullIf, [a, b] => .ok (if (k.key a).cellOrder? (k.key b) = some .eq then .null else a)
  | typeOf, [x] =>
      .ok <| .str <| match x with
        | .null => "null"
        | .bool _ | .int _ => "integer"
        | .float _ => "real"
        | .str _ => "text"
        | .bytes _ => "blob"
  | hex, [.null] => .ok (.str "")
  | char, args => .ok (ofChars (args.map fun x => charOf x.integerValue))
  | concat, args => .ok (joined "" args)
  | concatWith, separator :: args =>
      .ok (if separator = .null then .null else joined separator.cellText args)
  | fixed value, _ => .ok value
  | format, args => formatted args
  | occurs, [pattern, x] => searched pattern x
  | quote, [x] => .ok (.str (literalText x))
  | unusable, _ => .error .argument
  | zeros least, [n] =>
      let n := if n.integerValue < least then (least : Int) else n.integerValue
      if mostZeros < n then .error .tooLong else .ok (.bytes (List.replicate n.toNat 0))
  | json f binary, args => Prod.fst <$> f.apply binary (args.map fun x => (x, false))
  | moment f, args => .ok (f.apply args)
  | real f, args => .ok (f.apply args)
  | f, args => .ok (if args.contains .null then .null else f.applyPresent k args)

end Function

end RowPolicy.Sql
