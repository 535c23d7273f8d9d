import RowPolicy.Number.Shortest
import RowPolicy.Text.Quoted
import RowPolicy.Value

/-!
# The text of a value

Messages show a value as it could be written down: texts quoted, collections with
their brackets, a tuple of one element with a comma, empty sets by name. Parts of
statements have no written form and are only described.
-/

namespace RowPolicy

namespace Scalar

/-- Byte strings are quoted like texts, with every byte outside printable ASCII
escaped. -/
def bytesText (data : List UInt8) : String :=
  let quote := Text.quoteFor (data.map fun b => Char.ofNat b.toNat)
  let written (b : UInt8) : List Char :=
    if b.toNat < 0x7f then Text.escapedChar quote (Char.ofNat b.toNat)
    else Text.escapedByte b.toNat
  String.ofList ('b' :: quote :: data.flatMap written ++ [quote])

/-- The text of a scalar. -/
def text : Scalar → String
  | null => "None"
  | bool b => if b then "True" else "False"
  | int n => toString n
  | float x => x.text
  | str s => Text.quoted s
  | bytes data => bytesText data

end Scalar

/-- The written form of a collection whose elements have the given texts. -/
def CollectionKind.bracket : CollectionKind → List String → String
  | list, items => "[" ++ Text.commaSeparated items ++ "]"
  | tuple, [item] => "(" ++ item ++ ",)"
  | tuple, items => "(" ++ Text.commaSeparated items ++ ")"
  | set, [] => "set()"
  | set, items => "\x7b" ++ Text.commaSeparated items ++ "\x7d"
  | frozenSet, [] => "frozenset()"
  | frozenSet, items => "frozenset(\x7b" ++ Text.commaSeparated items ++ "\x7d)"

namespace Value

mutual

/-- The text of a value. -/
def text : Value → String
  | .scalar s => s.text
  | .collection kind items => kind.bracket (itemTexts items)
  | .map entries => "\x7b" ++ Text.commaSeparated (entryTexts entries) ++ "\x7d"
  | .comparison test operand =>
      "Comparison(op=" ++ Text.quoted test.name ++ ", operand=" ++ text operand ++ ")"
  | .expr _ => "<expression>"
  | .rows entity _ => "<rows of " ++ entity.name ++ ">"
  | .resolved kind body =>
      kind.typeName ++ "(" ++ kind.bodyName ++ "=" ++ text body ++ ")"

/-- The texts of some values. -/
def itemTexts : List Value → List String
  | [] => []
  | item :: rest => text item :: itemTexts rest

/-- The texts of the entries of a mapping. -/
def entryTexts : List (String × Value) → List String
  | [] => []
  | (key, value) :: rest => (Text.quoted key ++ ": " ++ text value) :: entryTexts rest

end

/-- The text of a value where a text stands for itself. -/
def plainText : Value → String
  | str s => s
  | v => v.text

end Value

end RowPolicy
