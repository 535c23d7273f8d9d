import RowPolicy.Json.Printer

/-!
# Places in JSON values

A path leads from a value to one inside of it, by the names of members and by the numbers of
items, which can be counted from the end. A value can be looked up at a path, taken away,
put in place of another one, or added where the last step leads nowhere yet.
-/

namespace RowPolicy.Json

/-- A step of a path. -/
inductive Step where
  | member (name : JsonText)
  | item (n : Nat)
  /-- An item counted from the end, where zero is the place behind the last one. -/
  | fromEnd (n : Nat)
  deriving DecidableEq, Repr

/-- Why nothing is found at a path. -/
inductive Miss where
  | nothing
  /-- The rest of the path is none. -/
  | badPath
  deriving DecidableEq, Repr

/-- The natural number that digits in front of a text write. -/
def natural (cs : List Char) : Nat × List Char :=
  ((cs.takeWhile Char.isDigit).foldl (fun n c => 10 * n + (c.toNat - '0'.toNat)) 0,
    cs.dropWhile Char.isDigit)

/-- The first step of a path and what follows it. -/
def step? : List Char → Option (Step × List Char)
  | '.' :: '"' :: cs =>
      let name := cs.takeWhile (· ≠ '"')
      match cs.dropWhile (· ≠ '"') with
      | _ :: rest => some (.member ⟨if name.contains '\\' then .loose else .raw, name⟩, rest)
      | [] => none
  | '.' :: cs =>
      let name := cs.takeWhile fun c => c ≠ '.' && c ≠ '['
      if name.isEmpty then none
      else some (.member ⟨.raw, name⟩, cs.dropWhile fun c => c ≠ '.' && c ≠ '[')
  | '[' :: '#' :: '-' :: cs =>
      match natural cs with
      | (n, ']' :: rest) => if (cs.head?.map Char.isDigit).getD false then some (.fromEnd n, rest)
          else none
      | _ => none
  | '[' :: '#' :: ']' :: cs => some (.fromEnd 0, cs)
  | '[' :: cs =>
      match natural cs with
      | (n, ']' :: rest) => if (cs.head?.map Char.isDigit).getD false then some (.item n, rest)
          else none
      | _ => none
  | _ => none

/-- The number of the item to which a step leads, of so many. -/
def Step.index? (count : Nat) : Step → Option Nat
  | .item n => some n
  | .fromEnd n => if n ≤ count then some (count - n) else none
  | .member _ => none

/-- The value to which a step leads. -/
def Step.next? (s : Step) (v : Json) : Option Json :=
  match s, v with
  | .member name, object members => (members.find? fun m => m.1.same name).map Prod.snd
  | .member _, _ => none
  | s, array items => (s.index? items.length).bind fun n => items[n]?
  | _, _ => none

/-- The value at a path. A bad path is noticed where its steps lead so far. -/
def lookUp (fuel : Nat) (v : Json) (path : List Char) : Except Miss Json :=
  match fuel, path with
  | 0, _ => .error .badPath
  | _, [] => .ok v
  | fuel + 1, path =>
      match step? path with
      | none => match v, path with
          | array _, '[' :: _ => .error .badPath
          | _, '[' :: _ => .error .nothing
          | _, _ => .error .badPath
      | some (s, rest) =>
          match s.next? v with
          | some next => lookUp fuel next rest
          | none => .error .nothing

/-- How a value is changed at a path. -/
inductive Change where
  | remove
  /-- Something is added, but nothing is replaced. -/
  | insert (v : Json)
  /-- Something is replaced, but nothing is added. -/
  | replace (v : Json)
  | put (v : Json)

/-- What is put in place of a value, if it is kept at all. -/
def Change.atEnd (c : Change) (v : Json) : Option Json :=
  match c with
  | .remove => none
  | .insert _ => some v
  | .replace new | .put new => some new

/-- What is added, if anything is. -/
def Change.added? : Change → Option Json
  | .insert v | .put v => some v
  | _ => none

/-- A list without the element at a place, or with another one in its stead. -/
def setAt {α : Type} (items : List α) (n : Nat) (new : Option α) : List α :=
  items.take n ++ new.toList ++ items.drop (n + 1)

/-- A value changed at a path, if anything is left of it. -/
def changed (fuel : Nat) (c : Change) (v : Json) (path : List Char) : Except Miss (Option Json) :=
  match fuel, path with
  | 0, _ => .error .badPath
  | _, [] => .ok (c.atEnd v)
  | fuel + 1, path =>
      match step? path with
      | none => match v, path with
          | array _, '[' :: _ => .error .badPath
          | _, '[' :: _ => .error .nothing
          | _, _ => .error .badPath
      | some (s, rest) =>
          let added : Except Miss Json :=
            match c.added? with
            | none => .error .nothing
            | some new =>
                match rest with
                | [] => .ok new
                | '.' :: _ => (changed fuel c (object []) rest).map fun v => v.getD null
                | _ => (changed fuel c (array []) rest).map fun v => v.getD null
          match s, v with
          | .member name, object members =>
              match members.findIdx? fun m => m.1.same name with
              | some n =>
                  match members[n]? with
                  | some (label, old) =>
                      (changed fuel c old rest).map fun new =>
                        some (object (setAt members n (new.map fun v => (label, v))))
                  | none => .error .nothing
              | none => added.map fun new => some (object (members ++ [(name, new)]))
          | .member _, _ => .error .nothing
          | s, array items =>
              match s.index? items.length with
              | none => .error .nothing
              | some n =>
                  match items[n]? with
                  | some old =>
                      (changed fuel c old rest).map fun new => some (array (setAt items n new))
                  | none =>
                      if n = items.length then
                        added.map fun new => some (array (items ++ [new]))
                      else .error .nothing
          | _, _ => .error .nothing

mutual

/-- A value changed by another one: members of the other one replace those of the same name,
and missing values take them away. -/
def patched (fuel : Nat) (v : Json) (change : Json) : Json :=
  match fuel with
  | 0 => change
  | fuel + 1 =>
      match change with
      | object changes =>
          let start := match v with
            | object members => members
            | _ => []
          object (patchedMembers fuel start changes)
      | change => change

/-- Members changed by others, one after another. -/
def patchedMembers (fuel : Nat) (members : List (JsonText × Json))
    (changes : List (JsonText × Json)) : List (JsonText × Json) :=
  match fuel, changes with
  | 0, _ => members
  | _, [] => members
  | fuel + 1, (label, change) :: rest =>
      let place := members.findIdx? fun m => m.1.same label
      let members := match change, place.bind fun n => (members[n]?).map fun m => (n, m) with
        | null, some (n, _) => setAt members n none
        | null, none => members
        | change, some (n, old) => setAt members n (some (old.1, patched fuel old.2 change))
        | change, none => members ++ [(label, patched fuel null change)]
      patchedMembers fuel members rest

end

mutual

/-- The number of values inside of a value, itself included. -/
def size : Json → Nat
  | array items => sizeOfItems items + 1
  | object members => sizeOfMembers members + 1
  | _ => 1

/-- The number of values inside of some values. -/
def sizeOfItems : List Json → Nat
  | [] => 0
  | v :: rest => size v + sizeOfItems rest

/-- The number of values inside of some members. -/
def sizeOfMembers : List (JsonText × Json) → Nat
  | [] => 0
  | (_, v) :: rest => size v + sizeOfMembers rest + 1

end

/-- A value changed by another one. -/
def patch (v change : Json) : Json := patched (2 * change.size + 2) v change

end RowPolicy.Json
