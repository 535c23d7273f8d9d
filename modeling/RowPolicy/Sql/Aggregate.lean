import RowPolicy.Json.Reader
import RowPolicy.Json.Walk
import RowPolicy.Sql.EvalError
import RowPolicy.Sql.Operation

/-!
# Aggregates

An aggregate is computed from the values of some terms on several rows. Missing values
count for nothing, except that rows as such can be counted.
-/

namespace RowPolicy.Sql

/-- What is computed from the values of terms on some rows. -/
inductive Aggregate where
  /-- The number of rows. -/
  | rows
  /-- The number of values that are not missing. -/
  | count
  | sum
  | total
  | average
  | max
  | min
  /-- All values as one text. -/
  | concat
  /-- All values, which are JSON, as one array. -/
  | jsonArray (binary : Bool)
  /-- All labels and values, which are JSON, as one object. -/
  | jsonObject (binary : Bool)
  deriving DecidableEq, Repr

namespace Aggregate

/-- The aggregate with the given name, in lower case, for so many arguments. -/
def ofName? (name : String) (count : Nat) : Option Aggregate :=
  match name, count with
  | "count", 0 => some rows
  | "count", 1 => some .count
  | "sum", 1 => some sum
  | "total", 1 => some total
  | "avg", 1 => some average
  | "max", 1 => some max
  | "min", 1 => some min
  | "group_concat", 1 | "group_concat", 2 | "string_agg", 2 => some concat
  | "json_group_array", 1 => some (jsonArray false)
  | "jsonb_group_array", 1 => some (jsonArray true)
  | "json_group_object", 2 => some (jsonObject false)
  | "jsonb_group_object", 2 => some (jsonObject true)
  | _, _ => none

/-- Whether there is an aggregate with the given name, in lower case, for any number of
arguments. -/
def isName (name : String) : Bool :=
  ["count", "sum", "total", "avg", "group_concat", "string_agg", "json_group_array",
    "jsonb_group_array", "json_group_object", "jsonb_group_object"].contains name

/-- Whether the aggregate is the value of one of the rows. -/
def isExtreme : Aggregate → Bool
  | max | min => true
  | _ => false

/-- Whether the aggregate is JSON in itself. -/
def isJson : Aggregate → Bool
  | jsonArray binary | jsonObject binary => !binary
  | _ => false

/-- Whether the last argument is to be JSON. -/
def takesJson : Aggregate → Bool
  | jsonArray _ | jsonObject _ => true
  | _ => false

/-- The cell of a JSON text, as it is or as bytes. -/
def jsonCell (binary : Bool) (text : String) : Except EvalError Scalar :=
  if !binary then .ok (.str text)
  else
    match Json.ofChars? text.toList with
    | some v => .ok (.bytes v.encode)
    | none => .error .argument

/-- A member of an object; without a label nothing stands in front of its value. -/
def jsonMember (row : List Scalar) : String :=
  let label := match row.headD .null with
    | .null => ""
    | cell => String.ofList (Json.ofText cell.cellText.toList).compact
  label ++ ":" ++ (row.getLastD .null).cellText

/-- Whether a cell is to be preferred to the best one so far. -/
def prefers (f : Aggregate) (k : Collation) (best cell : Scalar) : Bool :=
  (k.key cell).cellOrder? (k.key best) == some (if f = max then .gt else .lt)

/-- The number of a sum, of which integers are kept exact. -/
structure Sum where
  /-- The exact sum of all integers so far, if there was nothing else. -/
  whole : Option Int
  /-- The sum as a double, with what was lost by rounding. -/
  main : Binary64
  lost : Binary64
  overflows : Bool

namespace Sum

/-- The sum of no numbers. -/
def zero : Sum := ⟨some 0, .nearestInt 0, .nearestInt 0, false⟩

/-- Whether one double is less than another one when signs do not count. -/
def smaller (x y : Binary64) : Bool := x.magnitude.compare? y.magnitude == some .lt

/-- Add a double; what rounding loses is kept apart. -/
def addReal (s : Sum) (x : Binary64) : Sum :=
  let t := s.main.add x
  let lost := if smaller x s.main then (s.main.sub t).add x else (x.sub t).add s.main
  { s with main := t, lost := s.lost.add lost }

/-- The parts in which an integer is added, of which the first one is a double. -/
def parts (n : Int) : Int × Int :=
  if n ≤ -4503599627370496 ∨ 4503599627370496 ≤ n then (n - n.tmod 16384, n.tmod 16384) else (n, 0)

/-- Add an integer to the double. -/
def addWhole (s : Sum) (n : Int) : Sum :=
  let (large, small) := parts n
  let s := s.addReal (.nearestInt large)
  if small = 0 then s else s.addReal (.nearestInt small)

/-- Continue with a double. -/
def approximate (s : Sum) : Sum :=
  match s.whole with
  | some n =>
      let (large, small) := parts n
      { s with whole := none, main := .nearestInt large, lost := .nearestInt small }
  | none => s

/-- The number that a cell adds to a sum. -/
def term (cell : Scalar) : Scalar :=
  match cell.asNumeric with
  | .str _ | .bytes _ => CastKind.real.cast cell
  | cell => cell.number

/-- Add a cell that is not missing. -/
def add (s : Sum) (cell : Scalar) : Sum :=
  match term cell, s.whole with
  | .int n, some whole =>
      if Scalar.fits (whole + n) then { s with whole := some (whole + n) }
      else { s.approximate.addWhole n with overflows := true }
  | .int n, none => s.addWhole n
  | .float x, some _ => s.approximate.addReal x
  | .float x, none => { s.addReal x with overflows := false }
  | _, _ => s

/-- The sum as a double. -/
def real (s : Sum) : Binary64 :=
  match s.whole with
  | some n => .nearestInt n
  | none => if s.lost.value?.isSome then s.main.add s.lost else s.main

/-- The cell of the sum; integers alone must not become too large. -/
def cell (s : Sum) : Except EvalError Scalar :=
  match s.whole with
  | some n => .ok (.int n)
  | none => if s.overflows then .error .overflow else .ok (Scalar.ofReal s.real)

end Sum

/-- The value of an aggregate, given the values of its arguments on every row. -/
def apply (f : Aggregate) (k : Collation) (rows : List (List Scalar)) : Except EvalError Scalar :=
  let present := rows.filter fun row => row.head? != some .null
  let cells := present.map fun row => row.headD .null
  let sum := cells.foldl Sum.add .zero
  match f with
  | .rows => .ok (.int (List.length rows))
  | .count => .ok (.int (List.length cells))
  | .sum => if cells.isEmpty then .ok .null else sum.cell
  | .total => .ok (Scalar.ofReal sum.real)
  | .average =>
      if cells.isEmpty then .ok .null
      else .ok (.ofReal (sum.real.div (.nearestInt (List.length cells))))
  | .max | .min =>
      .ok (match cells with
        | [] => .null
        | x :: rest =>
            rest.foldl (fun best cell => if f.prefers k best cell then cell else best) x)
  | .concat =>
      .ok (match present with
        | [] => .null
        | first :: rest =>
            let separator (row : List Scalar) : String :=
              match row with
              | [_, s] => s.cellText
              | _ => ","
            .str (rest.foldl (fun text row => text ++ separator row ++ (row.headD .null).cellText)
              (first.headD .null).cellText))
  | .jsonArray binary =>
      jsonCell binary ("[" ++ ",".intercalate (rows.map fun row => (row.headD .null).cellText)
        ++ "]")
  | .jsonObject binary =>
      jsonCell binary (String.ofList ['\x7b'] ++ ",".intercalate (rows.map jsonMember)
        ++ String.ofList ['\x7d'])

end Aggregate

end RowPolicy.Sql
