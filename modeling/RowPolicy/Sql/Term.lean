import RowPolicy.Sql.Operation

/-!
# Terms and queries as they are written

A condition that is given as text is a term, and a term may contain queries of its own.
Names stand for columns, tables, functions and windows; what they mean is found out
later, when the tables around them are known. The parts of a call, of a sort key and of a
window are the same before and after that, so they are written over any kind of term.
-/

namespace RowPolicy.Sql

/-- A key by which rows are sorted. -/
structure SortKey (τ : Type) where
  term : τ
  descending : Bool
  /-- Whether missing values come first. -/
  nullsFirst : Bool

/-- In what the rows around a row are counted. -/
inductive FrameUnit where
  /-- In single rows. -/
  | rows
  /-- In groups of rows with the same keys. -/
  | groups
  /-- By the difference of their keys. -/
  | range
  deriving DecidableEq, Repr

/-- Where the rows around a row begin or end. -/
inductive FrameBound (τ : Type) where
  | start
  | preceding (distance : τ)
  | current
  | following (distance : τ)
  | stop

/-- Which of the rows around a row are left out again. -/
inductive FrameExclusion where
  | nothing
  /-- The row itself. -/
  | row
  /-- The row and those with the same keys. -/
  | group
  /-- Other rows with the same keys. -/
  | ties
  deriving DecidableEq, Repr

/-- Some rows around a row. -/
structure Frame (τ : Type) where
  unit : FrameUnit
  first : FrameBound τ
  last : FrameBound τ
  exclusion : FrameExclusion

/-- The rows that belong together with a row, possibly as another window says. -/
structure Window (τ : Type) where
  base : Option String
  partition : List τ
  keys : List (SortKey τ)
  frame : Option (Frame τ)

/-- The window of a call. -/
inductive Over (τ : Type) where
  | named (name : String)
  | window (w : Window τ)

/-- The call of a function by name. -/
structure Call (τ : Type) where
  name : String
  /-- Whether all rows are meant instead of arguments. -/
  star : Bool
  distinct : Bool
  args : List τ
  /-- The order in which rows are passed. -/
  keys : List (SortKey τ)
  /-- The condition that rows have to meet. -/
  filter : Option τ
  overWindow : Option (Over τ)

/-- The call of a function with some arguments and nothing else. -/
def Call.ofArgs {τ : Type} (name : String) (args : List τ) : Call τ :=
  ⟨name, false, false, args, [], none, none⟩

/-- How a table is joined to those in front of it. -/
structure JoinKind where
  /-- Whether rows in front are kept without a partner. -/
  keepsLeft : Bool
  /-- Whether rows of the table are kept without a partner. -/
  keepsRight : Bool
  /-- Whether columns of the same name have to be equal. -/
  natural : Bool
  /-- Whether the rows in front have to be gone through first. -/
  isCross : Bool
  deriving DecidableEq, Repr

/-- The join that keeps partners only. -/
def JoinKind.inner : JoinKind := ⟨false, false, false, false⟩

/-- Whether rows without a partner are kept. -/
def JoinKind.isOuter (k : JoinKind) : Bool := k.keepsLeft || k.keepsRight

/-- How the rows of two queries are put together. -/
inductive SetOp where
  | unionAll
  | union
  | except
  | intersect
  deriving DecidableEq, Repr

mutual

/-- A term. -/
inductive Term where
  | literal (value : Scalar)
  /-- The value passed at a place. -/
  | parameter (place : Nat)
  /-- A column, of the given table or of any. -/
  | name (schema table : Option String) (column : String) (mayBeText : Bool)
  | unary (op : UnaryOp) (x : Term)
  | binary (op : BinaryOp) (x y : Term)
  /-- The first branch whose condition is true, or whose value is the one at hand. -/
  | choose (base : Option Term) (branches : List (Term × Term)) (otherwise : Option Term)
  | call (c : Call Term)
  /-- Several values beside each other. -/
  | row (items : List Term)
  /-- Whether a value equals one of some others. -/
  | member (x : Term) (items : List Term)
  /-- Whether a value is found by a query. -/
  | among (x : Term) (q : Query)
  /-- Whether a query finds anything. -/
  | exists (q : Query)
  /-- The first row that a query finds. -/
  | query (q : Query)

/-- A query: the rows of one or more selections put together, sorted and limited. -/
inductive Query where
  | mk (common : List CommonTable) (first : Selection) (rest : List (SetOp × Selection))
      (keys : List (SortKey Term)) (limit offset : Option Term)

/-- A selection of rows. -/
inductive Selection where
  | rows (distinct : Bool) (items : List Item) (sources : List Source) (condition : Option Term)
      (groups : List Term) (having : Option Term) (windows : List (String × Window Term))
  /-- Rows that are listed. -/
  | values (rows : List (List Term))

/-- What a selection shows of a row. -/
inductive Item where
  /-- All columns. -/
  | all
  /-- All columns of a table. -/
  | allOf (table : String)
  /-- The value of a term, with its name or else the text of the term. -/
  | term (x : Term) (label : Option String) (text : String)

/-- A table among those that a selection goes through. -/
inductive Source where
  | mk (join : JoinKind) (body : SourceBody) (label : Option String) (on : Option Term)
      (shared : List String)

/-- What the rows of a source are. -/
inductive SourceBody where
  /-- Those of a table, or of a function that returns rows. -/
  | table (schema : Option String) (name : String) (args : Option (List Term))
  | query (q : Query)
  | nested (sources : List Source)

/-- A query with a name that others can use like a table. -/
inductive CommonTable where
  | mk (name : String) (columns : List String) (body : Query)

end

instance : Inhabited Term := ⟨.literal .null⟩

namespace Term

/-- A term with a minus in front of it, which is a part of a double that is written there. -/
def negative : Term → Term
  | literal (.float x) | unary .plus (literal (.float x)) => literal (.float x.opposite)
  | x => unary .negate x

/-- The opposite of a term if `negated` holds. -/
def negateIf (negated : Bool) (x : Term) : Term := if negated then unary .not x else x

/-- Whether a term is the number zero as it is written. -/
def isZero : Term → Bool
  | literal (.int n) => n == 0
  | _ => false

/-- Two terms both of which have to be true. A written zero among them decides at once. -/
def both (x y : Term) : Term :=
  if x.isZero || y.isZero then literal (.int 0) else binary .and x y

/-- The call of a function with two arguments. -/
def binaryCall (name : String) (x y : Term) : Term := call (.ofArgs name [x, y])

end Term

namespace Query

/-- A selection by itself. -/
def ofSelection (s : Selection) : Query := mk [] s [] [] none none

/-- All rows of a table. -/
def ofTable (schema : Option String) (name : String) (args : Option (List Term)) : Query :=
  ofSelection (.rows false [.all] [.mk .inner (.table schema name args) none none []] none []
    none [])

end Query

end RowPolicy.Sql
