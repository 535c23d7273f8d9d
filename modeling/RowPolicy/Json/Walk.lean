import RowPolicy.Json.Binary
import RowPolicy.Number.Numeral

/-!
# Walks through JSON values

A walk visits the values inside of a value, either those of its first level or all of them,
each before the values inside of it. A visit knows the path that leads to its value, and it
is numbered by the place of the value in the bytes of the whole.
-/

namespace RowPolicy.Json

/-- What a value is called by the value around it. -/
inductive Key where
  | none
  | name (t : JsonText)
  | item (n : Nat)
  deriving DecidableEq, Repr

/-- A value that is visited. -/
structure Visit where
  key : Key
  value : Json
  id : Nat
  parent : Option Nat
  /-- The path of the value around it. -/
  path : List Char
  /-- The path of the value itself. -/
  fullPath : List Char

/-- The step of a path by a key. -/
def Key.step : Key → List Char
  | .none => []
  | .item n => '[' :: (toString n).toList ++ [']']
  | .name t =>
      if t.written.head?.any Char.isAlpha && t.written.all Char.isAlphanum then '.' :: t.written
      else '.' :: '"' :: t.written ++ ['"']

/-- The values on the first level of a value, each with its key, the place of its head and
that of its own bytes. -/
def children (start : Nat) (v : Json) : List (Key × Nat × Nat × Json) :=
  let head (body : List UInt8) : Nat := (encode v).length - body.length
  match v with
  | array items =>
      (items.foldl (fun (found, n, place) v =>
        (found ++ [(Key.item n, place, place, v)], n + 1, place + (encode v).length))
        (([] : List (Key × Nat × Nat × Json)), 0, start + head (encodeItems items))).1
  | object members =>
      (members.foldl (fun (found, place) (label, v) =>
        let inner := place + (textBytes label).length
        (found ++ [(Key.name label, place, inner, v)], inner + (encode v).length))
        (([] : List (Key × Nat × Nat × Json)), start + head (encodeMembers members))).1
  | _ => []

/-- The visits of the first level of a value at a place. A value without others inside is
visited itself. -/
def shallow (path : List Char) (place : Nat) (v : Json) : List Visit :=
  if v.isNested then
    (children place v).map fun (key, head, _, v) =>
      ⟨key, v, head, none, path, path ++ key.step⟩
  else [⟨.none, v, place, none, path, path⟩]

/-- The visits of all values inside of a value. -/
def deep (fuel : Nat) (path : List Char) (parent place : Nat) (v : Json) : List Visit :=
  match fuel with
  | 0 => []
  | fuel + 1 =>
      (children place v).flatMap fun (key, inner, start, child) =>
        ⟨key, child, inner, some parent, path, path ++ key.step⟩ ::
          deep fuel (path ++ key.step) inner start child

/-- The place of the head of the value at a path, and that of its bytes. -/
def locate? (fuel : Nat) (head place : Nat) (v : Json) (path : List Char) :
    Option (Nat × Nat × Json) :=
  match fuel, path with
  | 0, _ => none
  | _, [] => some (head, place, v)
  | fuel + 1, path =>
      (step? path).bind fun (s, rest) =>
        let wanted : Key → Bool := fun key =>
          match s, key, v with
          | .member name, .name t, _ => t.same name
          | s, .item n, array items => s.index? items.length == some n
          | _, _, _ => false
        ((children place v).find? fun entry => wanted entry.1).bind fun (_, head, start, v) =>
          locate? fuel head start v rest

/-- The place of the first value inside of a value at a place. -/
def inside (place : Nat) (v : Json) : Nat :=
  ((children place v).head?.map fun entry => entry.2.1).getD place

/-- The length of the path of the value around the one with its head at a place, as far as it can
be told: in that one the value must come first. Otherwise the path is that of the whole. -/
def around (fuel : Nat) (whole : Json) (path : List Char) (head : Nat) : Nat → Nat
  | 0 => 1
  | n + 1 =>
      let isStep := (path[n + 1]?).any fun c => c = '.' || c = '['
      let found := if n = 0 || !isStep then none
        else locate? fuel 0 0 whole ((path.take (n + 1)).drop 1)
      match found with
      | some (_, place, v) => if inside place v = head then n + 1 else around fuel whole path head n
      | none => around fuel whole path head n

/-- The key that the last part of a path stands for. -/
def Key.ofStep : List Char → Key
  | '[' :: cs => .item ((Numeral.digits? (cs.takeWhile Char.isDigit)).getD 0)
  | '.' :: '"' :: cs => .name ⟨.plain, cs.dropLast⟩
  | '.' :: cs => .name ⟨.plain, cs⟩
  | _ => .none

/-- The visits of a walk from the value at a path. -/
def walk (all : Bool) (v : Json) (path : List Char) : Except Miss (List Visit) := do
  let fuel := path.length + 1
  let _ ← match lookUp fuel v (path.drop 1) with
    | .ok _ => pure true
    | .error .nothing => pure false
    | .error .badPath => throw .badPath
  match locate? fuel 0 0 v (path.drop 1) with
  | none => return []
  | some (head, place, found) =>
      if all then
        let count := around fuel v path head (path.length - 1)
        return ⟨.ofStep (path.drop count), found, head, none, path.take count, path⟩ ::
          deep found.size path head place found
      else if found.isNested then return shallow path place found
      else return [⟨.none, found, head, none, path, path⟩]

end RowPolicy.Json
