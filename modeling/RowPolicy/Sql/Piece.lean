import RowPolicy.Dict
import RowPolicy.Sql.Literal

/-!
# Statement text

A statement is a template: pieces of text and places for values. The same template is
written out in three ways. With literal values every place shows its value. With bound
parameters a place shows a parameter name, made of the name of the column compared
and a number, and the values are listed beside the text; the text is then the same
whatever the values are. To be run, a statement has a mere place holder for each value,
and numbers for truth values.
-/

namespace RowPolicy.Sql

/-- A piece of a statement. -/
inductive Piece where
  | text (s : String)
  /-- A truth value that is no parameter. -/
  | truth (b : Bool)
  /-- The place of one value compared with a column. -/
  | value (c : Column) (v : Value)
  /-- The place of the values between the parentheses of `IN` or `NOT IN`. -/
  | members (c : Column) (negated : Bool) (values : List Value)
  /-- A parameter named in a text fragment; it has no value. -/
  | named (name : String)
  /-- Text with the alias of a linking table in each of the gaps. -/
  | aliased (table : String) (around : List String)
  /-- A selection that has no table of its own. -/
  | sourceless

/-- A statement with places for values. -/
abbrev Template := List Piece

/-- Why a statement has no text. -/
inductive PrintError where
  /-- A value that cannot be written as a literal. -/
  | notLiteral
  /-- What should be written is no part of a statement. -/
  | notText
  /-- A text fragment uses the name of a generated parameter. -/
  | nameClash (name : String)
  /-- A table is joined directly to itself. -/
  | selfJoin (table : String)
  /-- All tables of a selection are those of the statement around it. -/
  | noTables
  deriving DecidableEq, Repr

namespace Piece

/-- The name from which a piece's own name is made, if it has one. -/
def baseName? : Piece → Option String
  | value c _ | members c _ _ => some c.name
  | aliased table _ => some table
  | text _ | truth _ | named _ | sourceless => none

/-- Whether a piece is a selection that has no table of its own. -/
def isSourceless : Piece → Bool
  | sourceless => true
  | _ => false

end Piece

namespace Template

/-- Each piece with the number that tells it from earlier pieces of the same base
name: pieces of one name count from one. -/
def numbered (template : Template) : List (Piece × Nat) :=
  go [] template
where
  /-- Number the remaining pieces, given the base names used so far. -/
  go (used : List String) : List Piece → List (Piece × Nat)
    | [] => []
    | piece :: rest =>
        match piece.baseName? with
        | some name => (piece, used.count name + 1) :: go (name :: used) rest
        | none => (piece, 0) :: go used rest

end Template

/-- A value as a literal of a type, if it has one. -/
def literal (type : ScalarType) (v : Value) : Except PrintError String :=
  match type.literal? v with
  | some text => .ok text
  | none => .error .notLiteral

namespace Template

/-- The generated name of the piece with number `n` and base name `name`. -/
def generatedName (name : String) (n : Nat) : String := name ++ "_" ++ toString n

/-- The text of one numbered piece with literal values. Without values, the place of
members closes its parenthesis over a test that no row passes, or every row if
negated. -/
def literalPiece : Piece × Nat → Except PrintError String
  | (.text s, _) => .ok s
  | (.truth b, _) => .ok (truthText b)
  | (.value c v, _) => literal (c.parameterType v) v
  | (.members _ negated [], _) => .ok (if negated then "NULL) OR (1 = 1" else "NULL) AND (1 != 1")
  | (.members c _ values, _) => do
      return String.intercalate ", " (← values.mapM (literal (c.memberType values)))
  | (.named _, _) => .ok "NULL"
  | (.aliased table around, n) => .ok (String.intercalate (generatedName table n) around)
  | (.sourceless, _) => .error .noTables

/-- The statement with literal values. -/
def literalText (template : Template) : Except PrintError String := do
  return String.join (← template.numbered.mapM literalPiece)

/-- The text of one numbered piece with bound parameters. -/
def boundPiece : Piece × Nat → String
  | (.text s, _) => s
  | (.truth b, _) => truthText b
  | (.value c _, n) => ":" ++ generatedName c.name n
  | (.members c _ _, n) => "__[POSTCOMPILE_" ++ generatedName c.name n ++ "]"
  | (.named name, _) => ":" ++ name
  | (.aliased table around, n) => String.intercalate (generatedName table n) around
  | (.sourceless, _) => ""

/-- The parameter of one numbered piece, with its value. -/
def parameter? : Piece × Nat → Option (String × Value)
  | (.value c v, n) => some (generatedName c.name n, v)
  | (.members c _ values, n) => some (generatedName c.name n, .collection .list values)
  | (.named name, _) => some (name, .null)
  | _ => none

/-- The names of the parameters that fragments mention. -/
def namedParameters (template : Template) : List String :=
  template.filterMap fun
    | .named name => some name
    | _ => none

/-- The names generated for values. -/
def generatedParameters (template : Template) : List String :=
  template.numbered.filterMap fun
    | (.value c _, n) | (.members c _ _, n) => some (generatedName c.name n)
    | _ => none

/-- A statement with bound parameters: its text, and the parameters in order of first
appearance. -/
structure Bound where
  text : String
  parameters : Dict String Value

/-- The statement with bound parameters. -/
def bound (template : Template) : Except PrintError Bound :=
  if template.any Piece.isSourceless then .error .noTables
  else
    match template.generatedParameters.find? (· ∈ template.namedParameters) with
    | some name => .error (.nameClash name)
    | none =>
        .ok { text := String.join (template.numbered.map boundPiece)
              parameters := Dict.ofList (template.numbered.filterMap parameter?) }

/-- The text of one numbered piece with place holders. -/
def heldPiece : Piece × Nat → String
  | (.truth b, _) => if b then "1" else "0"
  | (.value _ _, _) | (.named _, _) => "?"
  | (.members _ _ values, _) => Text.commaSeparated (values.map fun _ => "?")
  | piece => boundPiece piece

/-- The statement with place holders. -/
def heldText (template : Template) : String := String.join (template.numbered.map heldPiece)

/-- The values for the place holders, each with the type of its parameter. -/
def values (template : Template) : List (ScalarType × Value) :=
  template.flatMap fun
    | .value c v => [(c.parameterType v, v)]
    | .members c _ values => values.map fun v => (c.memberType values, v)
    | _ => []

/-- Put a separator between two parts; a part without any piece leaves none behind. -/
def separate (separator : String) (l r : Template) : Template :=
  if l.isEmpty then r else if r.isEmpty then l else l ++ .text separator :: r

/-- All parts with commas between them. -/
def listed : List Template → Template
  | [] => []
  | [part] => part
  | part :: rest => part ++ .text ", " :: listed rest

/-- Put a template between parentheses. -/
def parenthesized (template : Template) : Template := .text "(" :: template ++ [.text ")"]

end Template

end RowPolicy.Sql
