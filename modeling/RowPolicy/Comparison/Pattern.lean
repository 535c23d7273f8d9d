import RowPolicy.Text.LetterCase
import RowPolicy.Text.Suffix

/-!
# Text patterns

A pattern describes a whole text: `%` stands for any run of characters, line breaks
included, and every other character for the same letter in either case. One final
line break of the text may be left over.
-/

namespace RowPolicy.Pattern

/-- Whether the pattern describes all of the text, a final line break aside. -/
def covers : List Char → List Char → Bool
  | [], text => text == [] || text == ['\n']
  | '%' :: pattern, text => (Text.suffixes text).any (covers pattern)
  | _ :: _, [] => false
  | p :: pattern, c :: text => Text.sameLetter p c && covers pattern text

end RowPolicy.Pattern
