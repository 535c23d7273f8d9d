import RowPolicy.Text.Suffix

/-!
# Wildcard patterns

A pattern is a sequence of items, each of which stands for one character or for a run
of any length. There are two ways to write one down: with `%` and `_`, upper and lower
case alike, or with `*`, `?` and sets of characters in brackets, case by case.
-/

namespace RowPolicy.Sql

/-- An item of a pattern. -/
inductive Wildcard where
  /-- Any run of characters. -/
  | run
  /-- Any one character. -/
  | one
  | letter (c : Char)
  /-- A character in one of the ranges, or in none of them. -/
  | among (negated : Bool) (ranges : List (Char × Char))
  deriving DecidableEq, Repr

namespace Wildcard

/-- Whether an item that is no run stands for a character. -/
def accepts (caseless : Bool) (c : Char) : Wildcard → Bool
  | run | one => true
  | letter p => p == c || (caseless && p.toLower == c.toLower)
  | among negated ranges => (ranges.any fun range => range.1 ≤ c && c ≤ range.2) != negated

/-- Whether a pattern describes a text as a whole. -/
def covers (caseless : Bool) : List Wildcard → List Char → Bool
  | [], text => text.isEmpty
  | run :: pattern, text => (Text.suffixes text).any (covers caseless pattern)
  | _ :: _, [] => false
  | item :: pattern, c :: text => item.accepts caseless c && covers caseless pattern text

/-- The item that stands for no character. -/
def nothing : Wildcard := among false []

/-- A pattern with `%` and `_`. A character after the escape character stands for
itself. -/
def ofLike (escape : Option Char) : List Char → List Wildcard
  | [] => []
  | [c] =>
      if some c = escape then [nothing]
      else if c = '%' then [run] else if c = '_' then [one] else [letter c]
  | c :: d :: cs =>
      if some c = escape then letter d :: ofLike escape cs
      else if c = '%' then run :: ofLike escape (d :: cs)
      else if c = '_' then one :: ofLike escape (d :: cs)
      else letter c :: ofLike escape (d :: cs)

/-- The ranges in brackets, up to the closing one. -/
def ranges : List Char → List (Char × Char)
  | [] => []
  | [c] => [(c, c)]
  | [c, d] => [(c, c), (d, d)]
  | c :: '-' :: d :: cs => (c, d) :: ranges cs
  | c :: d :: cs => (c, c) :: ranges (d :: cs)

/-- A pattern with `*`, `?` and sets in brackets. A bracket that is not closed stands
for nothing. A closing bracket directly after the opening one is part of the set. -/
def ofGlob : List Char → List Wildcard
  | [] => []
  | '*' :: cs => run :: ofGlob cs
  | '?' :: cs => one :: ofGlob cs
  | '[' :: cs =>
      let negated := cs.head? == some '^'
      let start := if negated then cs.drop 1 else cs
      let first := start.take 1
      let inner := first ++ (start.drop 1).takeWhile (· ≠ ']')
      let rest := (start.drop 1).dropWhile (· ≠ ']')
      if rest.isEmpty then [nothing]
      else among negated (ranges inner) :: ofGlob (rest.drop 1)
  | c :: cs => letter c :: ofGlob cs
termination_by cs => cs.length
decreasing_by
  all_goals simp
  have hstart : (if cs.head? == some '^' then cs.drop 1 else cs).length ≤ cs.length := by
    split <;> simp
  have hrest := (List.dropWhile_suffix (· ≠ ']')
    (l := (if cs.head? == some '^' then cs.drop 1 else cs).drop 1)).length_le
  simp at hstart hrest ⊢
  omega

end Wildcard

end RowPolicy.Sql
