import RowPolicy.Sql.Formula.Access

/-!
# The order of loops

Sources are gone through in loops, one inside the other. Among all orders in which the loops can
stand, one is chosen whose steps are estimated to be few, where it counts if the rows then come in
an order that is needed. The choice is made loop by loop from the outermost on: of the paths that
go through the same sources only the cheapest ones are continued.
-/

namespace RowPolicy.Sql

/-- What an order of rows is needed for. -/
inductive OrderUse where
  | sorting
  | grouping
  /-- To leave out repetitions. -/
  | distinctness
  deriving DecidableEq

/-- A key by which rows are needed in order. -/
structure LoopKey where
  /-- The index of the cell that it is, if it is one. -/
  cell? : Option Nat
  /-- The sources on which it depends. -/
  sources : List Nat
  isConstant : Bool
  descending : Bool
  /-- Whether missing values are on the side where they are not by themselves. -/
  nullsMoved : Bool

/-- How an order of rows is needed. -/
structure OrderNeed where
  order : OrderUse
  keys : List LoopKey
  /-- The number of values that a row shows. -/
  width : Nat
  /-- Whether repetitions are left out besides. -/
  distinct : Bool
  /-- How many rows are taken at most, if that is known. -/
  limit : Option Estimate

/-- Some loops, one inside the other. -/
structure LoopPath where
  /-- The ways to rows, outermost loop first. -/
  ways : List Access
  rows : Estimate
  /-- The costs with and without bringing rows into order. -/
  cost : Estimate
  unsorted : Estimate
  /-- The number of keys in whose order rows come, unless that is still open. -/
  ordered : Option Nat

namespace LoopPath

/-- The sources that are gone through. -/
def sources (p : LoopPath) : List Nat := p.ways.map Access.source

/-- The path without loops. -/
def start (rows : Estimate) (ordered : Option Nat) : LoopPath := ⟨[], rows, 0, 0, ordered⟩

end LoopPath

/-- What is known of the order of rows after some loops. -/
structure OrderState where
  /-- The keys in whose order rows come, by number. -/
  met : List Nat
  /-- The sources that are gone through in outer loops. -/
  ready : List Nat
  /-- The sources of which every row is met once. -/
  distinct : List Nat
  /-- Whether the rows of all sources so far are told apart by the keys. -/
  isDistinct : Bool
  /-- The sources whose rows come in reverse. -/
  reversed : List Nat

namespace LoopProblem

/-- Whether a column has a single value for every row of some sources. -/
def isFixed (p : LoopProblem) (ready : List Nat) (cell : Nat) : Bool :=
  (p.probes cell).any fun probe =>
    (match probe.kind with
      | .equal _ => true
      | _ => false) && probe.needs.all ready.contains

/-- Take up the columns in whose order rows come, of which the first ones are fixed or not. A
direction that is needed has to be the same for all. The keys that are met then, whether these tell
the rows apart, and the direction are given. -/
def follow (need : OrderNeed) (met : List Nat) (direction : Option Bool) :
    List Nat → List Bool → List Nat × Bool × Option Bool
  | _ :: columns, true :: fixed => follow need met direction columns fixed
  | cell :: columns, fixed =>
      let isKeyed := !fixed.isEmpty
      let next := need.keys.zipIdx.find? fun (key, n) =>
        !met.contains n && (need.order == .sorting || key.cell? == some cell)
      match next with
      | some (key, n) =>
          let isSame := need.order == .grouping || direction.all (· == key.descending)
          if key.cell? == some cell && isSame then
            if key.nullsMoved && isKeyed then (met, false, some key.descending)
            else follow need (n :: met) (some key.descending) columns (fixed.drop 1)
          else (met, false, direction)
      | none => (met, false, direction)
  | [], _ => (met, true, direction)

/-- What is known of the order of rows after one more loop inside the others. -/
def advance (p : LoopProblem) (need : OrderNeed) (s : OrderState) (a : Access) : OrderState :=
  let ofSource (cell : Nat) : Bool := LoopTerm.sourceOf? p.sources cell == some a.source
  let fixed := (need.keys.zipIdx.filter fun (key, n) =>
    !s.met.contains n && key.cell?.any fun cell => ofSource cell && p.isFixed s.ready cell).map
      Prod.snd
  let met := fixed ++ s.met
  let (met, isDistinct, direction) :=
    if a.isSingle then (met, s.isDistinct, none)
    else if a.columns.isEmpty then (met, false, none)
    else follow need met none a.columns a.fixed
  let ready := a.source :: s.ready
  let reversed := if need.order == .sorting && direction == some true then a.source :: s.reversed
    else s.reversed
  if !isDistinct then ⟨met, ready, s.distinct, false, reversed⟩
  else
    let distinct := a.source :: s.distinct
    let others := (need.keys.zipIdx.filter fun (key, n) =>
      !met.contains n && (!key.sources.isEmpty || key.isConstant)
        && key.sources.all distinct.contains).map Prod.snd
    ⟨others ++ met, ready, distinct, true, reversed⟩

/-- What is known of the order of rows after some loops; nothing if an order has to be built for
one of them. -/
def state? (p : LoopProblem) (need : OrderNeed) (ways : List Access) : Option OrderState :=
  ways.foldl (fun s a =>
    match s with
    | some s => if s.met.length == need.keys.length || !s.isDistinct then some s
        else if (a.isBuilt || a.split.isSome) && !a.isSingle then none
        else some (p.advance need s a)
    | none => none) (some ⟨[], [], [], true, []⟩)

/-- The number of keys in whose order rows come after some loops, unless that is still open. -/
def ordered (p : LoopProblem) (need : OrderNeed) (ways : List Access) : Option Nat :=
  let all := need.keys.length
  match p.state? need ways with
  | none => some 0
  | some s =>
      if s.met.length == all then some all
      else if s.isDistinct then none
      else some ((List.range all).takeWhile s.met.contains).length

/-- What it costs to bring so many rows into order, if they are in the order of some keys
already. -/
def sortingCost (need : OrderNeed) (rows : Estimate) (count : Nat) : Estimate :=
  let all := need.keys.length
  let cost := rows + .ofNat ((need.width + 59) / 30)
  let cost := if count = 0 then cost else cost + .ofNat ((all - count) * 100 / all) - 66
  let (cost, rows) :=
    match need.limit with
    | some limit => (cost + (if count = 0 then 10 else 16), min limit rows)
    | none => (cost, if need.distinct && 10 < rows then rows - 10 else rows)
  cost + rows.depth

/-- A path with one more loop inside, of which so many rows are expected in the end. -/
def extend (p : LoopProblem) (need : Option (OrderNeed × Estimate)) (path : LoopPath)
    (a : Access) : LoopPath :=
  let run := a.run + path.rows
  let run := if a.setup = 0 then run else Estimate.plus a.setup run
  let unsorted := Estimate.plus run path.unsorted
  let ways := path.ways ++ [a]
  let rows := path.rows + a.rows
  match need with
  | none => ⟨ways, rows, unsorted, unsorted - 2, path.ordered⟩
  | some (need, expected) =>
      let ordered := if path.ordered.isSome then path.ordered else p.ordered need ways
      match ordered with
      | some n =>
          if n < need.keys.length then
            let cost := Estimate.plus unsorted (sortingCost need expected n) + 3
            ⟨ways, rows, cost, unsorted, ordered⟩
          else ⟨ways, rows, unsorted, unsorted - 2, ordered⟩
      | none => ⟨ways, rows, unsorted, unsorted - 2, none⟩

/-- Whether a path costs less than another one. -/
def isCheaper (a b : LoopPath) : Bool :=
  a.cost < b.cost || a.cost == b.cost && (a.rows < b.rows
    || a.rows == b.rows && a.unsorted < b.unsorted)

/-- The number of the path that costs most. -/
def dearest (paths : List LoopPath) : Nat :=
  let isDearer (a b : LoopPath) : Bool :=
    b.cost < a.cost || a.cost == b.cost && b.unsorted < a.unsorted
  (paths.zipIdx.foldl (fun (most, n) (path, m) =>
    if isDearer path most then (path, m) else (most, n)) (paths.headD (.start 0 none), 0)).2

/-- Take up a path among at most so many others. -/
def keep (most : Nat) (paths : List LoopPath) (path : LoopPath) : List LoopPath :=
  let isRival (other : LoopPath) : Bool :=
    other.ordered.isSome == path.ordered.isSome
      && other.sources.all path.sources.contains && path.sources.all other.sources.contains
  match paths.findIdx? isRival with
  | some n =>
      if paths[n]?.any (isCheaper path) then paths.set n path else paths
  | none =>
      if paths.length < most then paths ++ [path]
      else
        let n := dearest paths
        let isBetter := paths[n]?.any fun other =>
          path.cost < other.cost || path.cost == other.cost && path.unsorted < other.unsorted
        if isBetter then paths.set n path else paths

/-- The best paths through one more source each, `count` times. -/
def search (p : LoopProblem) (need : Option (OrderNeed × Estimate)) (ways : List Access)
    (count : Nat) (paths : List LoopPath) : List LoopPath :=
  match count with
  | 0 => paths
  | count + 1 =>
      let most := if p.sources.length ≤ 1 then 1 else if p.sources.length = 2 then 5 else 10
      let longer := paths.foldl (fun found path =>
        ways.foldl (fun found a =>
          if !a.needs.all path.sources.contains || path.sources.contains a.source
              || a.isBuilt && path.rows < 3 then found
          else keep most found (p.extend need path a)) found) []
      search p need ways count longer

/-- The cheapest of some paths. -/
def cheapest (paths : List LoopPath) : Option LoopPath :=
  match paths with
  | [] => none
  | path :: rest => some (rest.foldl (fun best path => if path.cost < best.cost then path else best)
      path)

/-- The ways to rows that are left when an order is looked for: a source of which rows are looked
up in the outermost loops is not gone through as a whole any more. -/
def narrowed (ways : List Access) (path : LoopPath) : List Access :=
  let keyed := (path.ways.takeWhile fun a => !a.fixed.isEmpty).map Access.source
  ways.filter fun a => !keyed.contains a.source || a.isBuilt || a.isLookedUp

/-- What is chosen: a path, whether its rows come in an order that is needed, and the sources whose
rows come in reverse for that. -/
structure Solution where
  path : LoopPath
  isOrdered : Bool
  reversed : List Nat

/-- What is chosen if so many rows come from outside. -/
def solution (p : LoopProblem) (outside : Estimate) (need : Option OrderNeed) :
    Option Solution := do
  let ways := p.ways
  let first ← cheapest (p.search none ways p.sources.length [.start outside (some 0)])
  match need with
  | none => return ⟨first, false, []⟩
  | some need =>
      let path ← cheapest (p.search (some (need, first.rows + 1)) (narrowed ways first)
        p.sources.length [.start outside none])
      let reversed := ((p.state? need path.ways).map OrderState.reversed).getD []
      return ⟨path, path.ordered == some need.keys.length, reversed⟩

end LoopProblem

end RowPolicy.Sql
