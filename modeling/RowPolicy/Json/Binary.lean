import RowPolicy.Json.Path

/-!
# JSON values as bytes

Every value is a head and a body. The head tells the kind of the value and the length of its
body; short lengths share a byte with the kind. Bodies are written texts and numbers, or the
values inside one after another, names in front of their values.
-/

namespace RowPolicy.Json

/-- The bytes of a number, the highest first. -/
def bigEndian (count n : Nat) : List UInt8 :=
  (List.range count).reverse.map fun place => UInt8.ofNat (n / Nat.pow 256 place % 256)

/-- A value of a kind with a body. -/
def framed (kind : Nat) (body : List UInt8) : List UInt8 :=
  let n := body.length
  (if n ≤ 11 then [UInt8.ofNat (16 * n + kind)]
    else if n ≤ 255 then UInt8.ofNat (0xc0 + kind) :: bigEndian 1 n
    else if n ≤ 65535 then UInt8.ofNat (0xd0 + kind) :: bigEndian 2 n
    else UInt8.ofNat (0xe0 + kind) :: bigEndian 4 n) ++ body

/-- The bytes of characters. -/
def bytesOf (cs : List Char) : List UInt8 := (String.ofList cs).toUTF8.toList

/-- The kind of a text. -/
def TextForm.kind : TextForm → Nat
  | .plain => 7
  | .escaped => 8
  | .loose => 9
  | .raw => 10

/-- The bytes of a text. -/
def textBytes (t : JsonText) : List UInt8 := framed (TextForm.kind t.form) (bytesOf t.written)

mutual

/-- The bytes of a value. -/
def encode : Json → List UInt8
  | null => [0]
  | truth b => [if b then 1 else 2]
  | whole plain written => framed (if plain then 3 else 4) (bytesOf written)
  | real plain written => framed (if plain then 5 else 6) (bytesOf written)
  | text t => textBytes t
  | array items => framed 11 (encodeItems items)
  | object members => framed 12 (encodeMembers members)

/-- The bytes of some values. -/
def encodeItems : List Json → List UInt8
  | [] => []
  | v :: rest => encode v ++ encodeItems rest

/-- The bytes of some members. -/
def encodeMembers : List (JsonText × Json) → List UInt8
  | [] => []
  | (label, v) :: rest => textBytes label ++ encode v ++ encodeMembers rest

end

/-- The kind and the body of the first value in some bytes, and what follows it. -/
def unframed? (data : List UInt8) : Option (Nat × List UInt8 × List UInt8) := do
  let head ← data.head?
  let kind := head.toNat % 16
  let short := head.toNat / 16
  let width := match short with
    | 12 => 1
    | 13 => 2
    | 14 => 4
    | 15 => 8
    | _ => 0
  let field := (data.drop 1).take width
  if field.length < width then none
  let n := if width = 0 then short else field.foldl (fun n b => 256 * n + b.toNat) 0
  let rest := data.drop (1 + width)
  if rest.length < n then none else return (kind, rest.take n, rest.drop n)

/-- The characters of bytes. -/
def charsOf? (data : List UInt8) : Option (List Char) :=
  (String.fromUTF8? ⟨data.toArray⟩).map String.toList

/-- The form of a text of a kind. -/
def formOf? : Nat → Option TextForm
  | 7 => some .plain
  | 8 => some .escaped
  | 9 => some .loose
  | 10 => some .raw
  | _ => none

mutual

/-- The first value in some bytes and what follows it. -/
def decode? (fuel : Nat) (data : List UInt8) : Option (Json × List UInt8) := do
  match fuel with
  | 0 => none
  | fuel + 1 =>
      let (kind, body, rest) ← unframed? data
      let v ← match kind with
        | 0 => if body.isEmpty then some null else none
        | 1 => if body.isEmpty then some (truth true) else none
        | 2 => if body.isEmpty then some (truth false) else none
        | 3 | 4 => (charsOf? body).map fun cs => whole (kind == 3) cs
        | 5 | 6 => (charsOf? body).map fun cs => real (kind == 5) cs
        | 11 => (decodeItems? fuel body).map array
        | 12 => (decodeMembers? fuel body).map object
        | kind => do
            let form ← formOf? kind
            some (text ⟨form, ← charsOf? body⟩)
      return (v, rest)

/-- The values that some bytes consist of. -/
def decodeItems? (fuel : Nat) (data : List UInt8) : Option (List Json) := do
  match fuel with
  | 0 => none
  | fuel + 1 =>
      if data.isEmpty then return []
      let (v, rest) ← decode? fuel data
      return v :: (← decodeItems? fuel rest)

/-- The members that some bytes consist of. -/
def decodeMembers? (fuel : Nat) (data : List UInt8) : Option (List (JsonText × Json)) := do
  match fuel with
  | 0 => none
  | fuel + 1 =>
      if data.isEmpty then return []
      match ← decode? fuel data with
      | (text label, rest) =>
          let (v, rest) ← decode? fuel rest
          return (label, v) :: (← decodeMembers? fuel rest)
      | _ => none

end

/-- The value that some bytes are. -/
def ofBytes? (data : List UInt8) : Option Json :=
  match decode? (2 * data.length + 2) data with
  | some (v, []) => some v
  | _ => none

end RowPolicy.Json
