import RowPolicy.Sql.Formula

/-!
# The cells that a formula depends on

A formula depends on the cells of a level that occur in it or in its queries. Every function is
given more fuel than there are levels in what it looks through.
-/

namespace RowPolicy.Sql

namespace FrameBound

/-- The distance of a bound, if it has one. -/
def distance? {φ : Type} : FrameBound φ → Option φ
  | preceding x | following x => some x
  | _ => none

end FrameBound

namespace WindowCall

/-- All formulas of a function of a window. -/
def formulas (w : WindowCall Formula) : List Formula :=
  w.args ++ w.filter.toList ++ w.partition ++ w.keys ++ w.frame.first.distance?.toList
    ++ w.frame.last.distance?.toList

end WindowCall

/-- All formulas of an aggregate. -/
def AggregateCall.formulas (a : AggregateCall Formula) : List Formula :=
  a.args ++ a.keys ++ a.filter.toList

mutual

/-- The indexes of the cells of a level on which a formula depends. -/
def Formula.cells (fuel level : Nat) (x : Formula) : List Nat :=
  match fuel with
  | 0 => []
  | fuel + 1 =>
      let all (xs : List Formula) : List Nat := xs.flatMap (Formula.cells fuel level)
      match x with
      | .cell l index _ _ => if l = level then [index] else []
      | .literal _ | .truth _ | .parameter _ | .aggregate _ _ _ | .window _ _ _ => []
      | .unary _ x => x.cells fuel level
      | .binary _ _ x y => all [x, y]
      | .rows _ _ xs ys => all (xs ++ ys)
      | .choose conditions values otherwise => all (conditions ++ values ++ [otherwise])
      | .call _ _ args | .merged args => all args
      | .member _ x items => all (x :: items)
      | .among _ xs _ p => all xs ++ p.cells fuel level
      | .exists p | .first p _ _ => p.cells fuel level

/-- The indexes of the cells of a level on which a plan depends. -/
def Plan.cells (fuel level : Nat) (p : Plan) : List Nat :=
  match fuel with
  | 0 => []
  | fuel + 1 =>
      let all (xs : List Formula) : List Nat := xs.flatMap (Formula.cells fuel level)
      match p with
      | .mk _ body _ _ limit offset => body.cells fuel level ++ all (limit.toList ++ offset.toList)
      | .recursive _ _ start steps _ _ _ limit offset =>
          (start :: steps).flatMap (Plan.cells fuel level) ++ all (limit.toList ++ offset.toList)

/-- The indexes of the cells of a level on which the body of a query depends. -/
def Body.cells (fuel level : Nat) (b : Body) : List Nat :=
  match fuel with
  | 0 => []
  | fuel + 1 =>
      let all (xs : List Formula) : List Nat := xs.flatMap (Formula.cells fuel level)
      match b with
      | .rows _ shown keys sources _ condition grouping windows =>
          let grouped : List Formula := match grouping with
            | some (.mk groups _ _ aggregates having) =>
                groups ++ aggregates.flatMap AggregateCall.formulas ++ having.toList
            | none => []
          all (shown ++ keys ++ condition ++ grouped ++ windows.flatMap WindowCall.formulas)
            ++ sources.flatMap (Joined.cells fuel level)
      | .values rows => all rows.flatten
      | .combined _ _ l r => l.cells fuel level ++ r.cells fuel level

/-- The indexes of the cells of a level on which a source and its condition depend. -/
def Joined.cells (fuel level : Nat) (j : Joined) : List Nat :=
  match fuel, j with
  | 0, _ => []
  | fuel + 1, .mk _ rows _ on => rows.cells fuel level ++ on.flatMap (Formula.cells fuel level)

/-- The indexes of the cells of a level on which the rows of a source depend. -/
def RowSource.cells (fuel level : Nat) (r : RowSource) : List Nat :=
  match fuel with
  | 0 => []
  | fuel + 1 =>
      match r with
      | .table _ | .working _ => []
      | .plan p => p.cells fuel level
      | .walk _ args => args.flatMap (Formula.cells fuel level)
      | .nested sources => sources.flatMap (Joined.cells fuel level)

end

end RowPolicy.Sql
