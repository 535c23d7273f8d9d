import RowPolicy.Number.Estimate
import RowPolicy.Sql.Aggregate
import RowPolicy.Sql.Function
import RowPolicy.Sql.Term

/-!
# Formulas and plans

A formula is a term in which every name has got its meaning: columns are cells of a row
on one of the levels of nested queries, the outermost first, and what is computed from
several rows is referred to by number. A plan is a query of formulas.
-/

namespace RowPolicy.Sql

/-- A function that is computed from the rows of a window. -/
inductive WindowFunction where
  | aggregate (f : Aggregate)
  | rowNumber
  | rank
  | denseRank
  | percentRank
  | cumulative
  /-- The number of the bucket, if rows are spread evenly. -/
  | bucket
  /-- The value on the row some places back, or ahead. -/
  | shifted (ahead : Bool)
  | first
  | last
  | nth
  deriving DecidableEq, Repr

/-- How a key is sorted. -/
structure SortOrder where
  descending : Bool
  nullsFirst : Bool
  collation : Collation
  deriving DecidableEq, Repr

/-- An aggregate of some rows: its arguments, the order of the rows and the condition that
they have to meet. -/
structure AggregateCall (φ : Type) where
  aggregate : Aggregate
  distinct : Bool
  collation : Collation
  args : List φ
  keys : List φ
  orders : List SortOrder
  filter : Option φ

/-- A function of the rows of a window. -/
structure WindowCall (φ : Type) where
  function : WindowFunction
  collation : Collation
  args : List φ
  filter : Option φ
  partition : List φ
  partitionOrders : List SortOrder
  keys : List φ
  orders : List SortOrder
  frame : Frame φ

/-- A loop over the rows of a source. -/
structure Loop (φ : Type) where
  /-- The source by number. -/
  source : Nat
  /-- Whether the rows come in reverse. -/
  isReversed : Bool
  /-- The cells in whose order the rows come before that in which they are kept counts. -/
  sorted : List Nat
  /-- If there are any, the rows for which the first conditions hold come first, and so on. -/
  branches : List (List φ)

/-- How several sources are gone through in loops, one inside the other. -/
structure Loops (φ : Type) where
  /-- The loops, outermost first. -/
  order : List (Loop φ)
  /-- How many rows are expected. -/
  rows : Estimate

namespace Loops

/-- Whether the sources are gone through in the order in which they stand, each one row after the
other. -/
def isAsWritten {φ : Type} (loops : Loops φ) : Bool :=
  loops.order.map Loop.source == List.range loops.order.length
    && loops.order.all fun loop =>
      !loop.isReversed && loop.sorted.isEmpty && loop.branches.isEmpty

end Loops

mutual

/-- A term whose names have got their meaning. -/
inductive Formula where
  | literal (value : Scalar)
  | truth (b : Bool)
  | parameter (place : Nat)
  /-- A cell of the row on a level, with the way it takes part in comparisons. -/
  | cell (level index : Nat) (affinity : Affinity) (collation : Collation)
  /-- An aggregate of the rows on a level, with the collation that it asks for. -/
  | aggregate (level index : Nat) (asked : Option Collation)
  /-- What is computed from a window on a level. -/
  | window (level index : Nat) (asked : Option Collation)
  | unary (op : UnaryOp) (x : Formula)
  | binary (op : BinaryOp) (collation : Collation) (x y : Formula)
  /-- A comparison of two rows of values. -/
  | rows (op : BinaryOp) (collations : List Collation) (xs ys : List Formula)
  /-- The value beside the first condition that is true. -/
  | choose (conditions values : List Formula) (otherwise : Formula)
  | call (f : Function) (collation : Collation) (args : List Formula)
  /-- The first value that is there, of columns that count as one. -/
  | merged (items : List Formula)
  | member (collation : Collation) (x : Formula) (items : List Formula)
  /-- Whether a row of values is found, with the affinities of the columns searched. -/
  | among (collations : List Collation) (xs : List Formula) (affinities : List Affinity) (p : Plan)
  | exists (p : Plan)
  /-- A column of the first row found. -/
  | first (p : Plan) (column : Nat) (affinity : Affinity)

/-- A query whose names have got their meaning. -/
inductive Plan where
  /-- Rows in an order, from an offset on and up to a limit. Sort keys are columns, if they
  are not among the keys of the body. -/
  | mk (level : Nat) (body : Body) (columns : List Nat) (orders : List SortOrder)
      (limit offset : Option Formula)
  /-- Rows that are found from earlier ones, starting with some. -/
  | recursive (level id : Nat) (start : Plan) (steps : List Plan)
      (distinct : Option (List Collation)) (columns : List Nat) (orders : List SortOrder)
      (limit offset : Option Formula)

/-- Where the rows of a query come from. -/
inductive Body where
  /-- The values shown of the rows, or groups of rows, for which a condition holds. -/
  | rows (distinct : Option (List Collation)) (shown keys : List Formula)
      (sources : List Joined) (loops : Loops Formula) (condition : List Formula)
      (grouping : Option Grouping)
      (windows : List (WindowCall Formula))
  | values (rows : List (List Formula))
  | combined (op : SetOp) (collations : List Collation) (l r : Body)

/-- How rows are grouped, and what is computed from every group. The rows are sorted for that,
unless those of every group come one after another anyway. -/
inductive Grouping where
  | mk (groups : List Formula) (orders : List SortOrder) (inOrder : Bool)
      (aggregates : List (AggregateCall Formula)) (having : Option Formula)

/-- A source of rows with so many cells each, joined to the sources in front of it on some
conditions. -/
inductive Joined where
  | mk (kind : JoinKind) (rows : RowSource) (width : Nat) (on : List Formula)

/-- Where the rows of a source come from. -/
inductive RowSource where
  | table (name : String)
  | plan (p : Plan)
  /-- The row at hand of a recursive query. -/
  | working (id : Nat)
  /-- The values on the first level of a JSON value, or all values inside of it, for each row in
  front. -/
  | walk (all : Bool) (args : List Formula)
  | nested (sources : List Joined)

end

/-- Whether the rows of a source depend on the row in front of it. -/
def RowSource.isWalk : RowSource → Bool
  | .walk _ _ => true
  | _ => false

instance : Inhabited Formula := ⟨.literal .null⟩
instance : Inhabited Body := ⟨.values []⟩

namespace Formula

mutual

/-- The collation that a formula asks for. -/
def asked? : Formula → Option Collation
  | unary (.collate k) _ => some k
  | unary _ x => x.asked?
  | binary _ _ x y => x.asked?.or y.asked?
  | rows _ _ xs ys => (askedAmong xs).or (askedAmong ys)
  | choose conditions values otherwise =>
      (askedAmong conditions).or ((askedAmong values).or otherwise.asked?)
  | call _ _ args => askedAmong args
  | member _ x items => x.asked?.or (askedAmong items)
  | among _ xs _ _ => askedAmong xs
  | aggregate _ _ asked | window _ _ asked => asked
  | merged items => askedAmong items
  | literal _ | truth _ | parameter _ | cell _ _ _ _ | first _ _ _ | .exists _ => none

/-- The collation that the first of some formulas asks for. -/
def askedAmong : List Formula → Option Collation
  | [] => none
  | x :: rest => x.asked?.or (askedAmong rest)

end

/-- Whether the value of a formula is JSON, if there is one, as far as its form shows. -/
def isJson : Formula → Bool
  | call (.json f false) _ _ => f.isMarked
  | unary .plus x | unary (.collate _) x => x.isJson
  | _ => false

/-- A formula that is marked as JSON if a condition holds. -/
def markedIf (isJson : Bool) (x : Formula) : Formula :=
  if isJson then .call (.json .marked false) .exact [x] else x

/-- The collation of a formula, which is that of a column or the one asked for. -/
def collation? : Formula → Option Collation
  | cell _ _ _ k => some k
  | unary (.cast _) x | unary .plus x => x.collation?
  | x => x.asked?

/-- The collation by which two formulas are compared. The first one decides, where what is
asked for goes before the collations of columns. -/
def comparison (x y : Formula) : Collation :=
  (x.asked?.or (y.asked?.or (x.collation?.or y.collation?))).getD .exact

/-- The collation of the first of some formulas that has one. -/
def collationAmong (items : List Formula) : Collation :=
  (items.findSome? collation?).getD .exact

/-- The affinity with which a formula adapts others. -/
def affinity : Formula → Affinity
  | cell _ _ f _ => f
  | unary (.cast kind) _ => kind.affinity
  | unary (.collate _) x => x.affinity
  | first _ _ f => f
  | merged (x :: _) => x.affinity
  | _ => .none

/-- Which kinds of value a formula may have: numbers, texts. -/
structure Kinds where
  numbers : Bool
  texts : Bool

/-- Either kind. -/
def Kinds.or (a b : Kinds) : Kinds := ⟨a.numbers || b.numbers, a.texts || b.texts⟩

/-- The kinds of value of an affinity. -/
def Kinds.ofAffinity : Affinity → Kinds
  | .numeric => ⟨true, false⟩
  | .text => ⟨false, true⟩
  | _ => ⟨true, true⟩

mutual

/-- The kinds of value that a formula may have, as far as its form shows them. -/
def kinds : Formula → Kinds
  | unary (.collate _) x | unary .plus x => x.kinds
  | literal .null => ⟨false, false⟩
  | literal (.str _) => ⟨false, true⟩
  | literal (.bytes _) => ⟨false, false⟩
  | binary .concat _ _ _ => ⟨false, true⟩
  | parameter _ | aggregate _ _ _ | window _ _ _ | call _ _ _ | merged _ => ⟨true, true⟩
  | cell _ _ f _ | first _ _ f => .ofAffinity f
  | unary (.cast kind) _ => .ofAffinity kind.affinity
  | choose _ values otherwise => (kindsOfAll values).or otherwise.kinds
  | _ => ⟨true, false⟩

/-- The kinds of value that some formulas may have. -/
def kindsOfAll : List Formula → Kinds
  | [] => ⟨false, false⟩
  | x :: rest => x.kinds.or (kindsOfAll rest)

end

/-- The affinity of a column that holds the values of some formulas, one after another in
the parts of a query. The first part with an affinity decides, unless values of other kinds
follow. -/
def commonAffinity (items : List Formula) : Affinity :=
  match items.find? fun x => x.affinity != .none with
  | none => .none
  | some x =>
      let kinds := (items.dropWhile fun x => x.affinity == .none).drop 1 |> kindsOfAll
      let before := kindsOfAll (items.takeWhile fun x => x.affinity == .none)
      let kinds := kinds.or before
      match x.affinity with
      | .text => if kinds.numbers then .bytes else .text
      | .numeric => if kinds.texts then .bytes else .numeric
      | f => f

mutual

/-- Whether a formula contains an aggregate of a level. -/
def hasAggregate (level : Nat) : Formula → Bool
  | aggregate l _ _ => l == level
  | unary _ x => x.hasAggregate level
  | binary _ _ x y => x.hasAggregate level || y.hasAggregate level
  | rows _ _ xs ys => anyAggregates level xs || anyAggregates level ys
  | choose conditions values otherwise =>
      anyAggregates level conditions || anyAggregates level values || otherwise.hasAggregate level
  | call _ _ args => anyAggregates level args
  | merged items => anyAggregates level items
  | member _ x items => x.hasAggregate level || anyAggregates level items
  | among _ xs _ _ => anyAggregates level xs
  | literal _ | truth _ | parameter _ | cell _ _ _ _ | window _ _ _ | first _ _ _ | .exists _ =>
      false

/-- Whether one of some formulas contains an aggregate of a level. -/
def anyAggregates (level : Nat) : List Formula → Bool
  | [] => false
  | x :: rest => x.hasAggregate level || anyAggregates level rest

end

mutual

/-- Whether two formulas are written alike. Queries never are. -/
def same : Formula → Formula → Bool
  | literal a, literal b => a == b
  | truth a, truth b => a == b
  | parameter a, parameter b => a == b
  | cell l i _ _, cell m j _ _ => l == m && i == j
  | aggregate l i _, aggregate m j _ => l == m && i == j
  | window l i _, window m j _ => l == m && i == j
  | unary f x, unary g y => f == g && same x y
  | binary f _ x y, binary g _ z w => f == g && same x z && same y w
  | rows f _ xs ys, rows g _ zs ws => f == g && sameAll xs zs && sameAll ys ws
  | choose cs vs x, choose ds ws y => sameAll cs ds && sameAll vs ws && same x y
  | call f _ xs, call g _ ys => f == g && sameAll xs ys
  | merged xs, merged ys => sameAll xs ys
  | member _ x xs, member _ y ys => same x y && sameAll xs ys
  | _, _ => false

/-- Whether two lists of formulas are written alike. -/
def sameAll : List Formula → List Formula → Bool
  | [], [] => true
  | x :: xs, y :: ys => same x y && sameAll xs ys
  | _, _ => false

end

end Formula

end RowPolicy.Sql
