import RowPolicy.Join.Tree
import RowPolicy.Text.Quoted

/-!
# The text of a join list

Quoted names between square brackets; a name with names below it is written as an
entry that maps the name to their list.
-/

namespace RowPolicy.JoinList

/-- The texts of the items of a join list. -/
def itemTexts : JoinList → List String
  | nil => []
  | name n rest => Text.quoted n :: rest.itemTexts
  | path n inner rest =>
      ("\x7b" ++ Text.quoted n ++ ": [" ++ Text.commaSeparated inner.itemTexts ++ "]\x7d")
        :: rest.itemTexts

/-- The text of a join list. -/
def text (list : JoinList) : String := "[" ++ Text.commaSeparated list.itemTexts ++ "]"

end RowPolicy.JoinList
