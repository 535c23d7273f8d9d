import RowPolicy.Sql.Piece
import RowPolicy.Text.Word

/-!
# Text fragments

A condition may be given as text. A colon in front of a word makes the word a
parameter, unless the colon follows a colon or a word or the word is followed by a
colon. A backslash in front of a colon keeps the colon as it is and is itself dropped.
-/

namespace RowPolicy.Sql.Fragment

/-- Whether a colon after this character cannot start a parameter. -/
def blocksParameter (before : Option Char) : Bool :=
  match before with
  | none => false
  | some c => c == ':' || c == '\\' || Text.isWord c

/-- Put plain characters in front of a template. -/
def prepend (cs : List Char) : Template → Template
  | .text s :: rest => .text (String.ofList cs ++ s) :: rest
  | template => if cs.isEmpty then template else .text (String.ofList cs) :: template

/-- Dropping characters makes a text no longer. -/
theorem length_dropWhile_le (p : Char → Bool) (cs : List Char) :
    (cs.dropWhile p).length ≤ cs.length :=
  (List.dropWhile_suffix p).length_le

/-- The pieces of a fragment; `before` is the character in front of it. -/
def pieces (before : Option Char) : List Char → Template
  | [] => []
  | ':' :: cs =>
      let name := cs.takeWhile Text.isWord
      let rest := cs.dropWhile Text.isWord
      if blocksParameter before || name.isEmpty || rest.head? == some ':' then
        prepend [':'] (pieces (some ':') cs)
      else .named (String.ofList name) :: pieces name.getLast? rest
  | '\\' :: ':' :: cs =>
      let name := cs.takeWhile Text.isWord
      let rest := cs.dropWhile Text.isWord
      if rest.head? == some ':' then prepend ['\\', ':'] (pieces (some ':') cs)
      else prepend (':' :: name) (pieces (name.getLast?.or (some ':')) rest)
  | c :: cs => prepend [c] (pieces (some c) cs)
termination_by cs => cs.length
decreasing_by
  all_goals
    have hrest := length_dropWhile_le Text.isWord cs
    simp
    try omega

/-- The template of a fragment. -/
def template (text : String) : Template := pieces none text.toList

end RowPolicy.Sql.Fragment
