import RowPolicy.Text.Hex
import RowPolicy.Text.Pattern

/-!
# Reading patterns

A pattern is written with a character for everything that is not a character by itself: classes
in brackets, groups in parentheses, repetitions behind what they repeat. Flags at the start of a
pattern or of a group change the meaning of characters inside. What has no meaning is no
pattern.
-/

namespace RowPolicy.Text

namespace Pattern

/-- What changes the meaning of characters. -/
structure Flags where
  caseless : Bool
  /-- Lines have a start and an end of their own. -/
  lines : Bool
  /-- Any character may be a new line. -/
  anyLine : Bool
  /-- Spaces and comments mean nothing. -/
  spaced : Bool
  ascii : Bool
  unicode : Bool

/-- No flags. -/
def Flags.none : Flags := ⟨false, false, false, false, false, false⟩

/-- Set or clear the flag with a letter. -/
def Flags.put? (f : Flags) (on : Bool) : Char → Option Flags
  | 'i' => some { f with caseless := on }
  | 'm' => some { f with lines := on }
  | 's' => some { f with anyLine := on }
  | 'x' => some { f with spaced := on }
  | 'a' => some { f with ascii := on }
  | 'u' => some { f with unicode := on }
  | _ => Option.none

/-- What is known while a pattern is read. -/
structure ReadState where
  rest : List Char
  /-- The number of groups that were opened. -/
  opened : Nat
  /-- The groups that were closed, with their numbers of characters. -/
  closed : List (Nat × Option Nat)
  names : List (String × Nat)
  /-- The number of groups in front of a look behind. -/
  limit : Option Nat
  /-- The groups on which something depends. -/
  needed : List Nat

/-- Reading takes characters from the front of a text, or fails. -/
abbrev Reader := StateT ReadState Option

namespace Reader

/-- The next character. -/
def peek : Reader (Option Char) := return (← get).rest.head?

/-- Take the next character. -/
def take? : Reader (Option Char) :=
  modifyGet fun s => (s.rest.head?, { s with rest := s.rest.drop 1 })

/-- Take the next character, which must be there. -/
def take : Reader Char := do
  match ← take? with
  | some c => return c
  | none => failure

/-- Take the next character if it is the given one. -/
def accept (c : Char) : Reader Bool := do
  if (← peek) = some c then
    let _ ← take?
    return true
  return false

/-- Take the given character, which must come next. -/
def expect (c : Char) : Reader Unit := do if !(← accept c) then failure

/-- Take characters of a kind, at most so many. -/
def takeSome (count : Nat) (isKind : Char → Bool) : Reader (List Char) :=
  modifyGet fun s =>
    let found := (s.rest.take count).takeWhile isKind
    (found, { s with rest := s.rest.drop found.length })

/-- Take what stands in front of a character, and the character itself. -/
def takeUntil (c : Char) : Reader (List Char) := do
  let found := (← get).rest.takeWhile (· ≠ c)
  modify fun s => { s with rest := s.rest.drop found.length }
  expect c
  return found

/-- The number that digits are written for in a base. -/
def valueOf (base : Nat) (digits : List Char) : Nat :=
  digits.foldl (fun n c => base * n + (hexDigit? c).getD 0) 0

/-- The character with a number of digits in base sixteen. -/
def hexCode (count : Nat) : Reader Nat := do
  let digits ← takeSome count fun c => (hexDigit? c).isSome
  let n := valueOf 16 digits
  if digits.length ≠ count ∨ 0x110000 ≤ n then failure
  return n

/-- Whether a character is a digit in base eight. -/
def isOctal (c : Char) : Bool := '0' ≤ c && c ≤ '7'

/-- The class of characters behind a backslash, and whether it is the opposite. -/
def classOf? : Char → Option (Bool × CharClass)
  | 'd' => some (false, .digit)
  | 'D' => some (true, .digit)
  | 's' => some (false, .space)
  | 'S' => some (true, .space)
  | 'w' => some (false, .word)
  | 'W' => some (true, .word)
  | _ => none

/-- The control that a letter behind a backslash stands for. -/
def controlOf? : Char → Option Nat
  | 'a' => some 7
  | 'f' => some 12
  | 'n' => some 10
  | 'r' => some 13
  | 't' => some 9
  | 'v' => some 11
  | '\\' => some 92
  | _ => none

/-- The code of the character that is written behind a backslash, beginning with `c`. -/
def code (c : Char) : Reader Nat := do
  match controlOf? c, c with
  | some n, _ => return n
  | none, 'x' => hexCode 2
  | none, 'u' => hexCode 4
  | none, 'U' => hexCode 8
  | none, c => if c.isAlpha then failure else return c.toNat

/-- The code with some digits in base eight, which must not be too large. -/
def octalCode (digits : List Char) : Reader Nat := do
  let n := valueOf 8 digits
  if 255 < n then failure
  return n

/-- A part of a set of characters. -/
def setItem : Reader CharItem := do
  let c ← take
  if c ≠ '\\' then return .codes c.toNat c.toNat
  let c ← take
  match classOf? c with
  | some (negated, k) => return .kind negated k
  | none =>
      let n ←
        if c = 'b' then pure 8
        else if isOctal c then do octalCode (c :: (← takeSome 2 isOctal))
        else if c.isDigit then failure
        else code c
      return .codes n n

/-- The parts of a set of characters behind its first bracket, at most `fuel` of them. -/
def setItems (fuel : Nat) (isFirst : Bool) : Reader (List CharItem) := do
  match fuel with
  | 0 => failure
  | fuel + 1 =>
      if !isFirst then
        if ← accept ']' then return []
      let item ← setItem
      if !(← accept '-') then return item :: (← setItems fuel false)
      if ← accept ']' then return [item, .codes 45 45]
      match item, ← setItem with
      | .codes first _, .codes last _ =>
          if last < first then failure
          return .codes first last :: (← setItems fuel false)
      | _, _ => failure

/-- Whether a group can be referred to. -/
def checkGroup (n : Nat) : Reader Unit := do
  let s ← get
  if !s.closed.any fun entry => entry.1 = n then failure
  if s.limit.any fun limit => limit < n then failure

/-- The name of a group. -/
def groupName (cs : List Char) : Reader String := do
  match cs with
  | [] => failure
  | c :: _ =>
      if !cs.all isWord || (digit? c).isSome then failure
      return String.ofList cs

/-- The group with a name. -/
def namedGroup (cs : List Char) : Reader Nat := do
  let name ← groupName cs
  match (← get).names.find? fun entry => entry.1 == name with
  | some (_, n) => return n
  | none => failure

/-- A pattern that refers to a group. -/
def reference (flags : Flags) (n : Nat) : Reader Pattern := do
  checkGroup n
  return .back n flags.caseless

/-- The pattern of one character. -/
def single (flags : Flags) (n : Nat) : Pattern :=
  .char false flags.caseless flags.ascii [.codes n n]

/-- What is written behind a backslash, and whether it can be repeated. -/
def escaped (flags : Flags) : Reader (Pattern × Bool) := do
  let c ← take
  match classOf? c, c with
  | some (negated, k), _ => return (.char false false flags.ascii [.kind negated k], true)
  | none, 'A' => return (.place (.start false), false)
  | none, 'Z' => return (.place .veryEnd, false)
  | none, 'b' => return (.place (.wordEdge false flags.ascii), false)
  | none, 'B' => return (.place (.wordEdge true flags.ascii), false)
  | none, '0' => return (single flags (← octalCode (c :: (← takeSome 2 isOctal))), true)
  | none, c =>
      if !c.isDigit then return (single flags (← code c), true)
      let second ← takeSome 1 Char.isDigit
      let third := ((← peek).filter isOctal).toList
      if second.length = 1 && third.length = 1 && (c :: second).all isOctal then
        let _ ← take?
        return (single flags (← octalCode (c :: second ++ third)), true)
      return (← reference flags (valueOf 10 (c :: second)), true)

/-- The flags of a letter sequence up to one of some characters, and that character. -/
def flagLetters (fuel : Nat) (on : Bool) (ends : List Char) (f : Flags) (c : Char) :
    Reader (Flags × Char) := do
  match fuel with
  | 0 => failure
  | fuel + 1 =>
      match f.put? on c with
      | none => failure
      | some f =>
          if f.ascii && f.unicode then failure
          let c ← take
          if ends.contains c then return (f, c) else flagLetters fuel on ends f c

/-- The flags that are set and cleared behind a question mark, with the character after them. -/
def flagChange (fuel : Nat) (c : Char) : Reader (Flags × Flags × Char) := do
  let (set, last) ← if c = '-' then pure (Flags.none, c) else
    flagLetters fuel true [')', '-', ':'] .none c
  if last ≠ '-' then return (set, .none, last)
  let (cleared, last) ← flagLetters fuel true [':'] .none (← take)
  let overlaps := (set.caseless && cleared.caseless) || (set.lines && cleared.lines)
    || (set.anyLine && cleared.anyLine) || (set.spaced && cleared.spaced)
  if cleared.ascii || cleared.unicode || overlaps then failure
  return (set, cleared, last)

/-- Flags with some that are set and some that are cleared. -/
def changed (f set cleared : Flags) : Flags where
  caseless := (f.caseless || set.caseless) && !cleared.caseless
  lines := (f.lines || set.lines) && !cleared.lines
  anyLine := (f.anyLine || set.anyLine) && !cleared.anyLine
  spaced := (f.spaced || set.spaced) && !cleared.spaced
  ascii := if set.unicode then false else f.ascii || set.ascii
  unicode := if set.ascii then false else f.unicode || set.unicode

/-- How often something is repeated, behind the given character; nothing if the character stands
for itself. -/
def bounds (c : Char) : Reader (Option (Nat × Option Nat)) := do
  match c with
  | '?' => return some (0, some 1)
  | '*' => return some (0, none)
  | '+' => return some (1, none)
  | _ =>
      if (← peek) = some '}' then return none
      let start ← get
      let low ← takeSome start.rest.length Char.isDigit
      let high ← if ← accept ',' then takeSome start.rest.length Char.isDigit else pure low
      if !(← accept '}') then
        set start
        return none
      let least := valueOf 10 low
      let most := if high.isEmpty then none else some (valueOf 10 high)
      if 4294967295 ≤ least || most.any fun n => 4294967295 ≤ n || n < least then failure
      return some (least, most)

/-- What follows a repetition. -/
def haste : Reader Haste := do
  if ← accept '?' then return .lazy
  if ← accept '+' then return .possessive
  return .greedy

/-- The patterns one behind the other. -/
def sequence (items : List (Pattern × Bool)) : Pattern :=
  items.foldl (fun p item => .seq item.1 p) .empty

mutual

/-- Patterns with bars between them; flags for the whole may stand at the start. -/
def choices (fuel : Nat) (isOuter isFirst : Bool) (flags : Flags) : Reader (Pattern × Flags) := do
  match fuel with
  | 0 => failure
  | fuel + 1 =>
      let (p, flags) ← branch fuel (isOuter && isFirst) flags []
      if !(← accept '|') then return (p, flags)
      let (q, flags) ← choices fuel isOuter false flags
      return (.choice p q, flags)

/-- A sequence of patterns behind those already read, the last one first. -/
def branch (fuel : Nat) (isStart : Bool) (flags : Flags) (items : List (Pattern × Bool)) :
    Reader (Pattern × Flags) := do
  match fuel with
  | 0 => failure
  | fuel + 1 =>
      match ← peek with
      | none | some '|' | some ')' => return (sequence items, flags)
      | some c =>
          let _ ← take?
          let further (p : Pattern) (canRepeat : Bool) : Reader (Pattern × Flags) :=
            branch fuel isStart flags ((p, canRepeat) :: items)
          if flags.spaced && (c = ' ' || (9 ≤ c.toNat && c.toNat ≤ 13)) then
            branch fuel isStart flags items
          else if flags.spaced && c = '#' then
            modify fun s => { s with rest := (s.rest.dropWhile (· ≠ '\n')).drop 1 }
            branch fuel isStart flags items
          else
            match c with
            | '\\' =>
                let (p, canRepeat) ← escaped flags
                further p canRepeat
            | '[' =>
                let negated ← accept '^'
                let set ← setItems fuel true
                further (.char negated flags.caseless flags.ascii set) true
            | '.' => further (.any flags.anyLine) true
            | '^' => further (.place (.start flags.lines)) false
            | '$' => further (.place (.stop flags.lines)) false
            | '(' =>
                match ← opened fuel (isStart && items.isEmpty) flags with
                | (some p, _) => further p true
                | (none, flags) => branch fuel isStart flags items
            | c =>
                if !(['*', '+', '?', '\x7b'].contains c) then further (single flags c.toNat) true
                else
                  match ← bounds c, items with
                  | none, _ => further (single flags c.toNat) true
                  | some (least, most), (p, true) :: rest =>
                      let repeated := Pattern.repeated least most (← haste) p
                      branch fuel isStart flags ((repeated, false) :: rest)
                  | some _, _ => failure

/-- What stands behind an opening parenthesis: a pattern, or a change of flags or nothing. -/
def opened (fuel : Nat) (isStart : Bool) (flags : Flags) : Reader (Option Pattern × Flags) := do
  match fuel with
  | 0 => failure
  | fuel + 1 =>
      if !(← accept '?') then return (some (← numbered fuel flags none), flags)
      match ← take with
      | 'P' =>
          if ← accept '<' then
            let name ← groupName (← takeUntil '>')
            return (some (← numbered fuel flags (some name)), flags)
          if !(← accept '=') then failure
          let n ← namedGroup (← takeUntil ')')
          return (some (← reference flags n), flags)
      | ':' => return (some (← inside fuel flags), flags)
      | '#' =>
          let _ ← takeUntil ')'
          return (none, flags)
      | '=' => return (some (.ahead false (← inside fuel flags)), flags)
      | '!' => return (some (.ahead true (← inside fuel flags)), flags)
      | '<' =>
          let c ← take
          if c ≠ '=' && c ≠ '!' then failure
          let limit := (← get).limit
          modify fun s => { s with limit := s.limit.or (some s.opened) }
          let p ← inside fuel flags
          modify fun s => { s with limit := limit }
          match p.width? (← widths) with
          | some n => return (some (.behind (c = '!') n p), flags)
          | none => failure
      | '(' =>
          let cs ← takeUntil ')'
          let n ←
            if cs.all Char.isDigit then pure (valueOf 10 cs)
            else namedGroup cs
          if n = 0 then failure
          modify fun s => { s with needed := n :: s.needed }
          if (← get).limit.isSome then checkGroup n
          let (yes, _) ← branch fuel false flags []
          let no ← if ← accept '|' then Prod.fst <$> branch fuel false flags [] else pure .empty
          expect ')'
          return (some (.depending n yes no), flags)
      | '>' => return (some (.atomic (← inside fuel flags)), flags)
      | c =>
          let (set, cleared, last) ← flagChange fuel c
          if last = ')' then
            if !isStart then failure
            let flags : Flags := { changed flags set cleared with
              ascii := flags.ascii || set.ascii
              unicode := flags.unicode || set.unicode }
            if flags.ascii && flags.unicode then failure
            return (none, flags)
          return (some (← inside fuel (changed flags set cleared)), flags)
where
  /-- The numbers of characters of the groups that were closed. -/
  widths : Reader (Nat → Option Nat) := do
    let closed := (← get).closed
    return fun n => (closed.find? fun entry => entry.1 = n).bind Prod.snd

/-- A pattern up to a closing parenthesis. -/
def inside (fuel : Nat) (flags : Flags) : Reader Pattern := do
  match fuel with
  | 0 => failure
  | fuel + 1 =>
      let (p, _) ← choices fuel false true flags
      expect ')'
      return p

/-- A group with a number, and possibly with a name. -/
def numbered (fuel : Nat) (flags : Flags) (name : Option String) : Reader Pattern := do
  match fuel with
  | 0 => failure
  | fuel + 1 =>
      let start ← get
      let n := start.opened + 1
      if start.names.any fun entry => name.any (entry.1 == ·) then failure
      modify fun s => { s with opened := n, names := s.names ++ name.toList.map fun s => (s, n) }
      let p ← inside fuel flags
      let closed := (← get).closed
      let width := p.width? fun n => (closed.find? fun entry => entry.1 = n).bind Prod.snd
      modify fun s => { s with closed := (n, width) :: s.closed }
      return .group n p

end

end Reader

/-- The pattern that is written in a text. -/
def ofChars? (cs : List Char) : Option Pattern := do
  let ((p, flags), s) ← (Reader.choices (6 * cs.length + 12) true true .none).run
    ⟨cs, 0, [], [], none, []⟩
  let isWhole := s.rest.isEmpty && s.needed.all fun n => n ≤ s.opened
  if !isWhole || (flags.ascii && flags.unicode) then none
  return p

end Pattern

end RowPolicy.Text
