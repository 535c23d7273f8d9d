import RowPolicy.Json.Reader
import RowPolicy.Json.Walk
import RowPolicy.Sql.EvalError
import RowPolicy.Sql.Operation

/-!
# Functions of JSON values

A cell stands for the JSON value that its text or its bytes are. Where a function puts cells
into a value, texts stay texts unless they come from a function whose result is JSON; such
cells are marked.
-/

namespace RowPolicy.Sql

/-- A function of JSON values. -/
inductive JsonFunction where
  /-- The value by itself. -/
  | verbatim
  | array
  | arrayLength
  | errorPlace
  | extract
  /-- The value at a place as JSON, where short paths are allowed. -/
  | member
  /-- The value at a place as a cell, where short paths are allowed. -/
  | memberCell
  | insert
  | object
  | patch
  | pretty
  | quote
  | remove
  | replace
  | put
  | typeName
  | isValid
  /-- A number that tells whether a cell is marked. -/
  | mark
  /-- The cell by itself, which is JSON already. -/
  | marked
  /-- The cell by itself, which is JSON if the name of its type says so. -/
  | typed
  deriving DecidableEq, Repr

namespace JsonFunction

/-- The names of the functions. -/
def names : List (String × JsonFunction) :=
  [("json", verbatim), ("json_array", array), ("json_array_length", arrayLength),
    ("json_error_position", errorPlace), ("json_extract", extract), ("->", member),
    ("->>", memberCell), ("json_insert", insert), ("json_object", object), ("json_patch", patch),
    ("json_pretty", pretty), ("json_quote", quote), ("json_remove", remove),
    ("json_replace", replace), ("json_set", put), ("json_type", typeName),
    ("json_valid", isValid), ("subtype", mark)]

/-- The functions whose results can be bytes as well. -/
def binaryNames : List (String × JsonFunction) :=
  [("jsonb", verbatim), ("jsonb_array", array), ("jsonb_extract", extract),
    ("jsonb_insert", insert), ("jsonb_object", object), ("jsonb_patch", patch),
    ("jsonb_remove", remove), ("jsonb_replace", replace), ("jsonb_set", put)]

/-- Whether a function can be called with so many arguments. -/
def accepts (count : Nat) : JsonFunction → Bool
  | verbatim | errorPlace | quote | mark | marked => count == 1
  | arrayLength | pretty | typeName | isValid => count == 1 || count == 2
  | member | memberCell | patch | typed => count == 2
  | array | extract | insert | object | remove | replace | put => true

/-- The walk with a name, in lower case: through all values, or through those of one level. -/
def walkOf? : String → Option Bool
  | "json_each" => some false
  | "json_tree" => some true
  | _ => none

/-- Whether the values of a function are JSON. -/
def isMarked : JsonFunction → Bool
  | verbatim | array | insert | marked | member | object | patch | pretty | put | quote | remove
  | replace => true
  | _ => false

/-- A cell that is marked if it is JSON. -/
abbrev Marked := Scalar × Bool

/-- The cell of a JSON value as it is. -/
def whole (binary : Bool) (v : Json) : Marked :=
  if binary then (.bytes v.encode, false) else (.str (String.ofList v.compact), true)

/-- The number that is written in decimal or hexadecimal digits. -/
def numberCell (plain : Bool) (written : List Char) : Scalar :=
  if plain then
    match Numeral.leading? written with
    | some n => .ofNumeral { n with isWhole := true }
    | none => .null
  else
    let negative := written.head? = some '-'
    let digits := (if negative then written.drop 1 else written).drop 2
    let n : Int := JsonText.hexValue digits
    let n := if negative then -n else n
    if Scalar.fits n then .int n else .float (.nearestInt 0)

/-- The cell that a JSON value stands for. Values with others inside are JSON themselves. -/
def cellOf (binary : Bool) (v : Json) : Marked :=
  match v with
  | .null => (.null, false)
  | .truth b => (.int (if b then 1 else 0), false)
  | .whole plain written => (numberCell plain written, false)
  | .real _ written =>
      ((Numeral.leading? written).elim .null fun n => .float n.nearest, false)
  | .text t => (.str (String.ofList t.chars), false)
  | v => whole binary v

/-- The JSON value that a cell is as a whole, if there is a cell. -/
def read (cell : Scalar) : Except EvalError (Option Json) :=
  match cell with
  | .null => .ok none
  | .bytes data =>
      match Json.ofBytes? data with
      | some v => .ok (some v)
      | none => ofText (Scalar.textOfBytes data)
  | cell => ofText cell.cellText
where
  /-- The JSON value that a text is. -/
  ofText (s : String) : Except EvalError (Option Json) :=
    match Json.ofChars? s.toList with
    | some v => .ok (some v)
    | none => .error .argument

/-- The JSON value of a cell that is put into another one, where infinity has a given text. -/
def part (infinity : String) (cell : Marked) : Except EvalError Json :=
  match cell with
  | (.null, _) => .ok .null
  | (.bool b, _) => .ok (.whole true [if b then '1' else '0'])
  | (.int n, _) => .ok (.whole true (toString n).toList)
  | (.float (.infinite negative), _) =>
      .ok (.real true ((if negative then ['-'] else []) ++ infinity.toList))
  | (.float x, _) => .ok (.real true (Scalar.float x).cellText.toList)
  | (.str s, isJson) =>
      if isJson then
        match Json.ofChars? s.toList with
        | some v => .ok v
        | none => .error .argument
      else .ok (.ofText s.toList)
  | (.bytes data, _) =>
      match Json.ofBytes? data with
      | some v => .ok v
      | none => .error .argument

/-- The path in a cell, behind its first mark. -/
def path (cell : Scalar) : Except EvalError (Option (List Char)) :=
  if cell = .null then .ok none
  else
    match cell.cellText.toList with
    | '$' :: path => .ok (some path)
    | _ => .error .argument

/-- The path that may be given by the name of a member or by the number of an item. -/
def shortPath (cell : Scalar) : Except EvalError (Option (List Char)) :=
  match cell with
  | .null => .ok none
  | cell =>
      let cs := cell.cellText.toList
      let isItem := match cell with
        | .int _ | .bool _ => true
        | _ => false
      match cs with
      | '$' :: path => .ok (some path)
      | cs =>
          if isItem then .ok (some ('[' :: cs ++ [']']))
          else if !cs.isEmpty && cs.all Char.isAlphanum then .ok (some ('.' :: cs))
          else if cs.head? = some '[' && 3 ≤ cs.length && cs.getLast? = some ']' then .ok (some cs)
          else if cs.isEmpty then .ok (some ['.'])
          else .ok (some ('.' :: '"' :: cs ++ ['"']))

/-- The value at a path. -/
def find (v : Json) (path : List Char) : Except EvalError (Option Json) :=
  match v.lookUp (path.length + 1) path with
  | .ok v => .ok (some v)
  | .error .nothing => .ok none
  | .error .badPath => .error .argument

/-- The values at several paths, if all of these are there. -/
def findAll (v : Json) : List Scalar → Except EvalError (Option (List Json))
  | [] => .ok (some [])
  | cell :: rest => do
      match ← path cell with
      | none => return none
      | some p =>
          let found ← find v p
          return (← findAll v rest).map fun others => found.getD .null :: others

/-- A value with changes at paths, each with what is put there. -/
def edited (change : Json → Json.Change) (v : Json) : List Marked → Except EvalError Json
  | place :: new :: rest => do
      match ← path place.1 with
      | none => edited change v rest
      | some p =>
          match v.changed (p.length + 1) (change (← part "9e999" new)) p with
          | .ok result => edited change (result.getD .null) rest
          | .error .nothing => edited change v rest
          | .error .badPath => throw .argument
  | _ => .ok v

/-- A value without what is at some paths, if anything is left. -/
def reduced (v : Json) : List Scalar → Except EvalError (Option Json)
  | [] => .ok (some v)
  | cell :: rest => do
      match ← path cell with
      | none => return none
      | some p =>
          match v.changed (p.length + 1) .remove p with
          | .ok (some v) => reduced v rest
          | .ok none => return none
          | .error .nothing => reduced v rest
          | .error .badPath => throw .argument

/-- The text of infinity in a new value. -/
def farthest : String := "9.0e+999"

/-- The members that labels and values in turn make. -/
def membersOf : List Marked → Except EvalError (List (JsonText × Json))
  | (.str label, _) :: v :: rest => do
      return (⟨.raw, label.toList⟩, ← part farthest v) :: (← membersOf rest)
  | [] => .ok []
  | _ => .error .argument

/-- Whether a cell is JSON of one of the kinds asked for: plain, loose, bytes at first sight or
bytes throughout. -/
def valid (cell : Scalar) (kinds : Nat) : Bool :=
  let ofText (s : String) : Bool :=
    match Json.ofChars s.toList with
    | .ok (_, plain) => kinds / 2 % 2 = 1 || (kinds % 2 = 1 && plain)
    | .error _ => false
  match cell with
  | .bytes data =>
      if (Json.ofBytes? data).isSome then 4 ≤ kinds else ofText (Scalar.textOfBytes data)
  | cell => ofText cell.cellText

/-- The value at the path in a second argument, or the value itself. -/
def atPath (v : Json) : List Marked → Except EvalError (Option Json)
  | [] => .ok (some v)
  | (cell, _) :: _ => do
      match ← path cell with
      | none => return none
      | some p => find v p

/-- The value of a function. -/
def apply (f : JsonFunction) (binary : Bool) (args : List Marked) : Except EvalError Marked := do
  let nothing : Marked := (.null, false)
  match f, args with
  | array, items => return whole binary (.array (← items.mapM (part farthest)))
  | object, items => return whole binary (.object (← membersOf items))
  | quote, [x] => return whole false (← part farthest x)
  | marked, [x] => return (x.1, x.1 != .null)
  | typed, [x, (type, _)] => return (x.1, type == .str "array" || type == .str "object")
  | mark, [x] => return (.int (if x.2 then 74 else 0), false)
  | errorPlace, [(.null, _)] => return nothing
  | errorPlace, [(cell, _)] =>
      let isBinary := match cell with
        | .bytes data => (Json.ofBytes? data).isSome
        | _ => false
      return (.int (match Json.ofChars cell.cellText.toList with
        | .ok _ => 0
        | .error n => if isBinary then 0 else n), false)
  | isValid, (cell, _) :: rest =>
      let kinds := (rest.head?.map fun kinds => kinds.1.integerValue).getD 1
      if kinds < 1 ∨ 15 < kinds then throw .argument
      if cell = .null then return nothing
      return (.int (if valid cell kinds.toNat then 1 else 0), false)
  | f, (first, _) :: rest =>
      if (f = insert ∨ f = replace ∨ f = put) ∧ rest.length % 2 = 1 then throw .argument
      if f = extract ∧ rest.isEmpty then return nothing
      match ← read first with
      | none => return nothing
      | some v =>
          match f, rest with
          | verbatim, _ => return whole binary v
          | arrayLength, rest =>
              match ← atPath v rest with
              | none => return nothing
              | some (.array items) => return (.int items.length, false)
              | some _ => return (.int 0, false)
          | extract, [(p, _)] =>
              match ← path p with
              | none => return nothing
              | some p => return (← find v p).elim nothing (cellOf binary)
          | extract, rest =>
              return (← findAll v (rest.map Prod.fst)).elim nothing fun found =>
                whole binary (.array found)
          | member, [(p, _)] =>
              match ← shortPath p with
              | none => return nothing
              | some p => return (← find v p).elim nothing (whole false)
          | memberCell, [(p, _)] =>
              match ← shortPath p with
              | none => return nothing
              | some p =>
                  return (← find v p).elim nothing fun found => ((cellOf false found).1, false)
          | insert, rest => return whole binary (← edited .insert v rest)
          | replace, rest => return whole binary (← edited .replace v rest)
          | put, rest => return whole binary (← edited .put v rest)
          | remove, rest =>
              return (← reduced v (rest.map Prod.fst)).elim nothing (whole binary)
          | patch, [(other, _)] =>
              match ← read other with
              | none => return nothing
              | some change => return whole binary (v.patch change)
          | pretty, rest =>
              let indent := match rest with
                | (.null, _) :: _ | [] => [' ', ' ', ' ', ' ']
                | (cell, _) :: _ => cell.cellText.toList
              return (.str (String.ofList (v.pretty indent 0)), true)
          | typeName, rest =>
              return (← atPath v rest).elim nothing fun found => (.str found.typeName, false)
          | _, _ => return nothing
  | _, [] =>
      if f = insert ∨ f = replace ∨ f = put then throw .argument
      return nothing

/-- The cells of a visit in a walk. -/
def cellsOf (v : Json.Visit) : List Scalar :=
  let text (cs : List Char) : Scalar := .str (String.ofList cs)
  let key : Scalar := match v.key with
    | .none => .null
    | .name t => text t.chars
    | .item n => .int n
  let value := (cellOf false v.value).1
  [key, value, .str v.value.typeName, if v.value.isNested then .null else value, .int v.id,
    v.parent.elim .null fun n => .int n, text v.fullPath, text v.path]

/-- The rows of a walk through a JSON value from a path on, each with its number at the end. -/
def walk (all : Bool) (args : List Scalar) : Except EvalError (List (List Scalar)) := do
  let first := args.headD .null
  let start : Scalar := (args.drop 1).headD (.str "$")
  match ← read first with
  | none => return []
  | some v =>
      match ← path start with
      | none => return []
      | some _ =>
          match v.walk all start.cellText.toList with
          | .ok visits =>
              return visits.zipIdx.map fun (visit, n) => cellsOf visit ++ [first, start, .int n]
          | .error _ => throw .argument

end JsonFunction

end RowPolicy.Sql
