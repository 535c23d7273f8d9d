import RowPolicy.Text.LetterCase
import RowPolicy.Text.Numeral
import RowPolicy.Text.Word

/-!
# Patterns of texts

A pattern describes texts by characters and classes of characters, by sequences, choices and
repetitions, and by what stands around a place. It can refer to what a group of it has
matched. Repetitions try long matches first unless they are lazy; the first way in which the
whole pattern matches counts.
-/

namespace RowPolicy.Text

/-- A class of characters. -/
inductive CharClass where
  | digit
  | space
  | word
  deriving DecidableEq, Repr

/-- A part of a set of characters. -/
inductive CharItem where
  /-- The characters with codes between two numbers. -/
  | codes (first last : Nat)
  | kind (negated : Bool) (k : CharClass)
  deriving DecidableEq, Repr

/-- What has to hold at a place between characters. -/
inductive Place where
  /-- The start of the text, or of a line as well. -/
  | start (lines : Bool)
  /-- The end of the text or the place before a last new line, or the end of a line. -/
  | stop (lines : Bool)
  /-- The very end of the text. -/
  | veryEnd
  /-- The start or the end of a word, or none of them. -/
  | wordEdge (negated ascii : Bool)
  deriving DecidableEq, Repr

/-- How a repetition goes on. -/
inductive Haste where
  | greedy
  | lazy
  /-- As often as possible, without a second try. -/
  | possessive
  deriving DecidableEq, Repr

/-- A pattern. -/
inductive Pattern where
  | empty
  /-- A character of a set, or of none of it. -/
  | char (negated caseless ascii : Bool) (items : List CharItem)
  /-- Any character, but a new line only if all are allowed. -/
  | any (lines : Bool)
  | place (p : Place)
  | seq (p q : Pattern)
  | choice (p q : Pattern)
  | repeated (least : Nat) (most : Option Nat) (haste : Haste) (p : Pattern)
  | group (n : Nat) (p : Pattern)
  /-- What a group has matched. -/
  | back (n : Nat) (caseless : Bool)
  /-- What follows, or what is in front over so many characters, matches or does not. -/
  | ahead (negated : Bool) (p : Pattern)
  | behind (negated : Bool) (width : Nat) (p : Pattern)
  /-- The first way in which a pattern matches is the only one. -/
  | atomic (p : Pattern)
  /-- One pattern if a group has matched, or another one. -/
  | depending (n : Nat) (yes no : Pattern)
  deriving Repr

namespace CharClass

/-- Whether a character belongs to a class. -/
def has (ascii : Bool) (k : CharClass) (c : Char) : Bool :=
  match k with
  | digit => if ascii then c.isDigit else (digit? c).isSome
  | space => if ascii then c = ' ' || (9 ≤ c.toNat && c.toNat ≤ 13) else isBlankOrSeparator c
  | word => if ascii then c.isAlphanum || c = '_' else isWord c

end CharClass

namespace CharItem

/-- Whether a character belongs to a part of a set. -/
def has (caseless ascii : Bool) (item : CharItem) (c : Char) : Bool :=
  match item with
  | codes first last =>
      let inside (c : Char) : Bool := first ≤ c.toNat && c.toNat ≤ last
      inside c || (caseless &&
        if ascii then inside c.toLower || inside c.toUpper else (variants c).any inside)
  | kind negated k => k.has ascii c != negated

end CharItem

namespace Pattern

/-- A place in a text: the characters in front of it, the last one first, and those behind. -/
structure Spot where
  before : List Char
  rest : List Char
  /-- What the groups have matched. -/
  groups : List (Nat × List Char)

/-- Whether something holds at a spot. -/
def Place.holds (p : Place) (s : Spot) : Bool :=
  match p with
  | .start lines => s.before.isEmpty || (lines && s.before.head? = some '\n')
  | .stop lines =>
      s.rest.isEmpty || s.rest = ['\n'] || (lines && s.rest.head? = some '\n')
  | .veryEnd => s.rest.isEmpty
  | .wordEdge negated ascii =>
      let isWord (c : Option Char) : Bool := c.any (CharClass.word.has ascii)
      !(s.before.isEmpty && s.rest.isEmpty)
        && (isWord s.before.head? != isWord s.rest.head?) != negated

/-- The spot behind the next character. -/
def Spot.next (s : Spot) : Spot :=
  { s with before := s.rest.take 1 ++ s.before, rest := s.rest.drop 1 }

/-- The spot so many characters further on. -/
def Spot.skip (s : Spot) (n : Nat) : Spot :=
  { s with before := (s.rest.take n).reverse ++ s.before, rest := s.rest.drop n }

/-- Whether two texts are the same, up to case if that is allowed. -/
def sameChars (caseless : Bool) (a b : List Char) : Bool :=
  a.length = b.length && (a.zip b).all fun (c, d) => c = d || (caseless && sameLetter c d)

/-- The first way in which a pattern matches at a spot such that what follows it succeeds. -/
def run (fuel : Nat) (p : Pattern) (s : Spot) (k : Spot → Option Spot) : Option Spot :=
  match fuel with
  | 0 => none
  | fuel + 1 =>
      match p with
      | empty => k s
      | char negated caseless ascii items =>
          match s.rest with
          | [] => none
          | c :: _ =>
              if (items.any fun item => item.has caseless ascii c) != negated then k s.next
              else none
      | any lines =>
          match s.rest with
          | [] => none
          | c :: _ => if lines || c ≠ '\n' then k s.next else none
      | place p => if Place.holds p s then k s else none
      | seq p q => run fuel p s fun s => run fuel q s k
      | choice p q => (run fuel p s k).or (run fuel q s k)
      | group n p =>
          let start := s.before.length
          run fuel p s fun t =>
            k { t with
              groups := (n, (t.before.take (t.before.length - start)).reverse) :: t.groups }
      | back n caseless =>
          match s.groups.find? fun entry => entry.1 = n with
          | none => none
          | some (_, cs) =>
              if sameChars caseless cs (s.rest.take cs.length) then k (s.skip cs.length) else none
      | ahead negated p =>
          match run fuel p s some with
          | some t => if negated then none else k { s with groups := t.groups }
          | none => if negated then k s else none
      | behind negated width p =>
          let start : Spot := { s with
            before := s.before.drop width
            rest := (s.before.take width).reverse ++ s.rest }
          let found := if s.before.length < width then none
            else run fuel p start fun t =>
              if t.before.length = s.before.length then some t else none
          match found with
          | some t => if negated then none else k { s with groups := t.groups }
          | none => if negated then k s else none
      | atomic p => (run fuel p s some).bind k
      | depending n yes no =>
          if s.groups.any fun entry => entry.1 = n then run fuel yes s k else run fuel no s k
      | repeated (least + 1) most haste p =>
          match haste with
          | .possessive =>
              (run fuel (repeated (least + 1) most .greedy p) s some).bind k
          | haste =>
              run fuel p s fun t => run fuel (repeated least (most.map (· - 1)) haste p) t k
      | repeated 0 (some 0) _ _ => k s
      | repeated 0 most .possessive p => (run fuel (repeated 0 most .greedy p) s some).bind k
      | repeated 0 most haste p =>
          let again : Option Spot := run fuel p s fun t =>
            if t.rest.length = s.rest.length then none
            else run fuel (repeated 0 (most.map (· - 1)) haste p) t k
          if haste = .lazy then (k s).or again else again.or (k s)

/-- The number of characters that a pattern matches, if all its ways match the same number. The
numbers of the groups that it refers to are given. -/
def width? (groups : Nat → Option Nat) : Pattern → Option Nat
  | empty | place _ | ahead _ _ | behind _ _ _ => some 0
  | char _ _ _ _ | any _ => some 1
  | seq p q => do return (← p.width? groups) + (← q.width? groups)
  | choice p q => do
      let n ← p.width? groups
      if (← q.width? groups) = n then return n else none
  | repeated least most _ p =>
      if most = some 0 then some 0
      else do
        let n ← p.width? groups
        if some least = most ∨ n = 0 then return least * n else none
  | group _ p | atomic p => p.width? groups
  | back n _ => groups n
  | depending _ p q => do
      let n ← p.width? groups
      if (← q.width? groups) = n then return n else none

/-- The number of parts of a pattern. -/
def size : Pattern → Nat
  | seq p q | choice p q | depending _ p q => p.size + q.size + 1
  | repeated least _ _ p => p.size + least + 1
  | group _ p | ahead _ p | behind _ _ p | atomic p => p.size + 1
  | _ => 1

/-- Whether a pattern matches a part of a text. -/
def occursIn (p : Pattern) (cs : List Char) : Bool :=
  let fuel := (cs.length + 2) * (p.size + 2)
  (List.range (cs.length + 1)).any fun n =>
    (run fuel p ((⟨[], cs, []⟩ : Spot).skip n) some).isSome

end Pattern

end RowPolicy.Text
