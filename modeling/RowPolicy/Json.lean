/-!
# JSON values

Numbers and texts are kept as they are written, so that a value can be written again
without a change. What is written can be plain JSON, or it can use the looser forms in
which a number may be hexadecimal or lack digits beside its point, and in which a text has
more escapes.
-/

namespace RowPolicy

/-- How a text is written. -/
inductive TextForm where
  /-- Without anything that stands for something else. -/
  | plain
  /-- With the escapes of JSON. -/
  | escaped
  /-- With further escapes, or with characters that JSON escapes. -/
  | loose
  /-- As it is, so that it has to be escaped before it is written. -/
  | raw
  deriving DecidableEq, Repr

/-- A text as it is written, without its quotes. -/
structure JsonText where
  form : TextForm
  written : List Char
  deriving DecidableEq, Repr

/-- A JSON value. -/
inductive Json where
  | null
  | truth (b : Bool)
  /-- An integer, in hexadecimal digits if it is not plain. -/
  | whole (plain : Bool) (written : List Char)
  /-- A number with a point or an exponent. It is not plain if digits beside the point lack. -/
  | real (plain : Bool) (written : List Char)
  | text (t : JsonText)
  | array (items : List Json)
  | object (members : List (JsonText × Json))
  deriving Repr

namespace Json

instance : Inhabited Json := ⟨null⟩

/-- A text that is not written yet. -/
def ofText (cs : List Char) : Json := text ⟨.raw, cs⟩

/-- The name of the type of a value. -/
def typeName : Json → String
  | null => "null"
  | truth b => if b then "true" else "false"
  | whole _ _ => "integer"
  | real _ _ => "real"
  | text _ => "text"
  | array _ => "array"
  | object _ => "object"

/-- Whether a value consists of other ones. -/
def isNested : Json → Bool
  | array _ | object _ => true
  | _ => false

end Json

end RowPolicy
