import RowPolicy.Sql.Formula.Cells

/-!
# Ways to the rows of a source

In a loop the rows of a source are gone through one by one, in one of the orders in which they are
kept, or those are looked up for which conditions fix or bound the first columns of such an order.
Where no order helps, a temporary one can be built. If a condition has several branches, rows can
be looked up branch by branch. What a way costs and how many rows it leads to is estimated without
knowing the rows: all tables count as equally large.
-/

namespace RowPolicy.Sql

/-- An order in which rows are kept: that of their numbers, or that of columns in which no two
rows agree. Columns are known by the indexes of their cells. -/
structure RowIndex where
  columns : List Nat
  isNumber : Bool

namespace RowIndex

/-- How many rows of so many agree in the first columns, for none, one, two and more of these. -/
def agreeing (index : RowIndex) (rows : Estimate) (count : Nat) : Estimate :=
  if count = 0 then rows
  else if count = index.columns.length then 0
  else [33, 32, 30, 28, 27].getD (count - 1) 23

/-- What it costs to read an entry. -/
def entryCost : Estimate := 16

end RowIndex

/-- A source of rows, as it counts in the choice of loops. -/
structure LoopSource where
  kind : JoinKind
  /-- The index of its first cell, and the number of its cells. -/
  start : Nat
  width : Nat
  rows : Estimate
  /-- Whether it is a table of the database. -/
  isStored : Bool
  /-- Whether an order can be built for it. -/
  isSortable : Bool
  indexes : List RowIndex

/-- How a condition singles out values of a column. -/
inductive ProbeKind where
  /-- It names the value, which may be that of another column. -/
  | equal (other : Option Nat)
  /-- It names so many values. -/
  | within (count : Estimate)
  | above
  | below
  deriving DecidableEq

/-- A column of which a condition singles out values. -/
structure Probe where
  /-- The place of the condition. -/
  term : List Nat
  cell : Nat
  kind : ProbeKind
  /-- The sources on whose rows the values depend. -/
  needs : List Nat
  /-- The source that is joined on the condition, if rows are kept without a partner there. -/
  owner : Option Nat
  /-- Whether values of the column are compared as what they are. -/
  isFitting : Bool

/-- A condition, as it counts in the choice of loops. -/
structure LoopTerm where
  /-- Its place: the number of a condition, or that of a part inside a part of another one. -/
  place : List Nat
  /-- The sources on whose rows it depends. -/
  sources : List Nat
  owner : Option Nat
  /-- By how much it makes rows fewer at least. -/
  reduction : Estimate
  /-- What it says of a column by itself, and what follows from it besides. -/
  probes : List Probe
  derived : List Probe
  /-- Two columns that it makes equal. -/
  link : Option (Nat × Nat)

/-- Conditions that have to hold together. -/
structure LoopBranch where
  terms : List LoopTerm
  formulas : List Formula

/-- The sources and conditions of a selection, and the columns by whose values its rows are needed
in order. -/
structure LoopProblem where
  sources : List LoopSource
  terms : List LoopTerm
  sorted : List Nat
  /-- Conditions by which rows can be looked up besides. -/
  others : List LoopTerm
  /-- Conditions that hold if one of their branches does. -/
  splits : List (List LoopBranch)

namespace LoopTerm

/-- The source to which a cell belongs. -/
def sourceOf? (sources : List LoopSource) (cell : Nat) : Option Nat :=
  sources.findIdx? fun s => s.start ≤ cell && cell < s.start + s.width

/-- The sources to which some cells belong. -/
def sourcesOf (sources : List LoopSource) (cells : List Nat) : List Nat :=
  (cells.filterMap (sourceOf? sources)).eraseDups

/-- The index of a cell of a level. -/
def cell? (level : Nat) : Formula → Option Nat
  | .cell l index _ _ => if l = level then some index else none
  | _ => none

/-- Whether a formula is a whole number of at most one as it is written. -/
def isTiny : Formula → Bool
  | .literal (.int n) => n.natAbs ≤ 1
  | .unary .plus x | .unary .negate x => isTiny x
  | _ => false

/-- The two sides of an equation. -/
def equation? : Formula → Option (Formula × Formula)
  | .binary (.relation .eq) _ x y | .binary .same _ x y => some (x, y)
  | _ => none

/-- What a comparison says of its left side and of its right side. -/
def kinds? (level : Nat) (x y : Formula) : BinaryOp → Option (ProbeKind × ProbeKind)
  | .relation .eq | .same => some (.equal (cell? level y), .equal (cell? level x))
  | .relation .lt | .relation .le => some (.below, .above)
  | .relation .gt | .relation .ge => some (.above, .below)
  | _ => none

/-- Whether the values of a column are compared with others as they are. -/
def fits (column other : Affinity) : Bool :=
  match column.common other with
  | .text => column == .text
  | .numeric => column == .numeric
  | _ => true

/-- Whether two columns that are equal can stand for each other. -/
def isLink (x y : Formula) : Bool :=
  x.affinity == y.affinity && Formula.comparison x y == .exact

/-- A column that a comparison is about: its cell, what is said of it, the column itself and what it
is compared with. -/
structure Side where
  cell : Nat
  kind : ProbeKind
  column : Formula
  other : Formula

/-- The columns that a comparison is about. -/
def sides (level : Nat) : Formula → List Side
  | .binary op _ x y =>
      match kinds? level x y op with
      | some (left, right) =>
          (cell? level x).toList.map (fun cell => ⟨cell, left, x, y⟩)
            ++ (cell? level y).toList.map fun cell => ⟨cell, right, y, x⟩
      | none => []
  | _ => []

/-- The parts of a condition of which one has to hold. -/
def disjuncts : Formula → List Formula
  | .binary .or _ x y => disjuncts x ++ disjuncts y
  | x => [x]

/-- The parts of a condition that have to hold together. -/
def conjuncts : Formula → List Formula
  | .binary .and _ x y => conjuncts x ++ conjuncts y
  | x => [x]

/-- A column that each of some parts says to be equal to something, with what it is equal to. -/
def common? (level : Nat) (sources : List LoopSource) (parts : List Formula) :
    Option (Side × List Formula) :=
  let all := parts.map fun x => match x with
    | .binary (.relation .eq) _ _ _ => sides level x
    | _ => []
  let sourceOf (side : Side) : Option Nat := sourceOf? sources side.cell
  let candidates := match all.headD [] with
    | [a, b] => if sourceOf a == sourceOf b then [a] else [a, b]
    | candidates => candidates
  candidates.findSome? fun candidate => do
    let others ← all.mapM fun sides =>
      (sides.find? fun side => side.cell == candidate.cell
        && (side.other.affinity == .none || side.other.affinity == side.column.affinity)).map
          Side.other
    return (candidate, others)

/-- What two parts of which one has to hold say of a column together. -/
def joint? (a b : Side) : Option ProbeKind :=
  if a.cell ≠ b.cell || !Formula.same a.other b.other then none
  else match a.kind, b.kind with
    | .equal other, .equal _ => some (.equal other)
    | .equal _, .above | .above, .equal _ | .above, .above => some .above
    | .equal _, .below | .below, .equal _ | .below, .below => some .below
    | _, _ => none

/-- The cell that a condition says to have a single value, if it does. -/
def fixed? (level : Nat) : Formula → Option Nat
  | .binary (.relation .eq) .exact x (.literal _) | .binary (.relation .eq) .exact (.literal _) x
  | .binary (.relation .eq) .exact x (.parameter _)
  | .binary (.relation .eq) .exact (.parameter _) x => cell? level x
  | _ => none

/-- The condition at a place, of some sources of a level of which some cells are fixed by other
conditions. Conditions on which rows are kept without a partner belong to their source, for which
all sources in front come first. -/
def ofFormula (fuel level : Nat) (sources : List LoopSource) (fixed : List Nat) (owner : Option Nat)
    (place : List Nat) (x : Formula) : LoopTerm :=
  let fixed := if (fixed? level x).isSome then [] else fixed
  let cells (y : Formula) : List Nat := (y.cells fuel level).filter fun n => !fixed.contains n
  let needs (y : Formula) : List Nat :=
    (sourcesOf sources (cells y) ++ List.range (owner.getD 0)).eraseDups
  let probe (place : List Nat) (side : Side) (kind : ProbeKind) : Probe :=
    ⟨place, side.cell, kind, needs side.other, owner,
      fits side.column.affinity side.other.affinity⟩
  let (probes, derived) : List Probe × List Probe := match x with
    | .binary .or _ _ _ =>
        let parts := disjuncts x
        let named := match common? level sources parts with
          | some (side, others) =>
              [(⟨place, side.cell, .within (.ofNat others.length),
                (others.flatMap needs).eraseDups, owner, true⟩ : Probe)]
          | none => []
        let sidesOf (part : Formula) : List Side := (conjuncts part).flatMap (sides level)
        let joined := match parts with
          | [x, y] =>
              if (sides level x).length = 2 || (sides level y).length = 2 then []
              else (sidesOf x).flatMap fun a => (sidesOf y).filterMap fun b =>
                (joint? a b).map fun kind => probe (place ++ [0]) a kind
          | _ => []
        ([], joined ++ named)
    | .member _ x items =>
        let needed := (items.flatMap needs).eraseDups
        ((cell? level x).toList.map fun cell =>
          ⟨place, cell, .within (.ofNat items.length), needed, owner, true⟩, [])
    | .among _ [x] _ p =>
        ((cell? level x).toList.map fun cell =>
          ⟨place, cell, .within 46, sourcesOf sources (p.cells fuel level), owner, true⟩, [])
    | x =>
        let probes := (sides level x).map fun side => probe place side side.kind
        (probes.take 1, probes.drop 1)
  let isSelective := (equation? x).isSome && !probes.isEmpty
  let isTiny := (equation? x).any fun (y, z) => isTiny y || isTiny z
  let link := match equation? x with
    | some (y, z) =>
        match cell? level y, cell? level z with
        | some a, some b => if owner.isNone && isLink y z then some (a, b) else none
        | _, _ => none
    | none => none
  ⟨place, (sourcesOf sources (cells x) ++ owner.toList).eraseDups, owner,
    if isSelective then (if isTiny then 10 else 20) else 0, probes, derived, link⟩

/-- What some conditions say of columns: each by itself, and then what follows from them besides,
from the last one on. -/
def listed (terms : List LoopTerm) : List Probe :=
  terms.flatMap LoopTerm.probes ++ terms.reverse.flatMap LoopTerm.derived

/-- The branches of a condition at a place, if it has any. -/
def branchesOf? (fuel level : Nat) (sources : List LoopSource) (fixed : List Nat)
    (owner : Option Nat) (n : Nat) : Formula → Option (List LoopBranch)
  | .binary .or k x y =>
      some ((disjuncts (.binary .or k x y)).zipIdx.map fun (part, b) =>
        let formulas := conjuncts part
        ⟨formulas.zipIdx.map fun (x, i) => ofFormula fuel level sources fixed owner [n, b, i] x,
          formulas⟩)
  | _ => none

end LoopTerm

/-- A way to rows of a source. -/
structure Access where
  source : Nat
  /-- The sources that have to be gone through first. -/
  needs : List Nat
  /-- What it costs once, what it costs each time, and how many rows it leads to each time. -/
  setup : Estimate
  run : Estimate
  rows : Estimate
  /-- Whether an order is built for it. -/
  isBuilt : Bool
  /-- Whether there is one row at most. -/
  isSingle : Bool
  /-- Whether rows are looked up by conditions. -/
  isLookedUp : Bool
  /-- The columns in whose order rows come, and which of the first ones are fixed by a single value
  each, as far as their values are looked up. -/
  columns : List Nat
  fixed : List Bool
  /-- The number of the order that is used, if that helps to have rows in order. -/
  sort : Nat
  /-- The condition by number through whose branches rows are looked up, if there is one. -/
  split : Option Nat

namespace LoopProblem

/-- Columns that are equal to some others, those others first. -/
def equals (links : List (Nat × Nat)) (fuel : Nat) (done next : List Nat) : List Nat :=
  match fuel, next with
  | 0, _ => done ++ next
  | _, [] => done
  | fuel + 1, cell :: rest =>
      let found := links.filterMap fun (a, b) =>
        if a = cell then some b else if b = cell then some a else none
      let known := done ++ cell :: rest
      equals links fuel (done ++ [cell])
        (rest ++ (found.filter fun other => !known.contains other).eraseDups)

/-- The conditions that single out values of a column, directly or through equal columns. -/
def probes (p : LoopProblem) (cell : Nat) : List Probe :=
  let all := LoopTerm.listed p.terms ++ LoopTerm.listed p.others
  let links := (p.terms ++ p.others).filterMap LoopTerm.link
  (equals links 11 [] [cell]).zipIdx.flatMap fun (member, n) =>
    all.filter fun probe => probe.cell == member && (n == 0 || probe.owner.isNone)
      && probe.kind != .equal (some cell)

/-- The conditions by which rows of a source can be looked up by a column. -/
def usable (p : LoopProblem) (i : Nat) (source : LoopSource) (cell : Nat) : List Probe :=
  (p.probes cell).filter fun probe =>
    !probe.needs.contains i
      && (if source.kind.keepsLeft then probe.owner == some i else probe.owner.isNone)

/-- The number of rows that are left of so many by the conditions that can be tested then, except
for some that were used already. -/
def left (p : LoopProblem) (i : Nat) (needs : List Nat) (used : List (List Nat))
    (rows all : Estimate) : Estimate :=
  let tested := p.terms.filter fun t =>
    t.sources.contains i && !used.contains t.place
      && t.sources.all fun j => j == i || needs.contains j
  min (rows - tested.length) (all - tested.foldl (fun most t => max most t.reduction) 0)

/-- The number of rows between bounds. -/
def bounded (rows : Estimate) (bounds : Nat) : Estimate :=
  let narrowed := if bounds = 2 then rows - 60 else rows - 20
  min (rows - bounds) (max 10 narrowed)

/-- The ways to rows by building an order, as the order with a number. -/
def built (p : LoopProblem) (i : Nat) (source : LoopSource) (before : List Nat) (sort : Nat) :
    List Access :=
  if source.kind.keepsRight || !source.isSortable then []
  else
    let depth := Estimate.depth source.rows
    let setup := max 0 (depth + source.rows + if source.isStored then 28 else -25)
    (LoopTerm.listed p.terms).filterMap fun probe =>
      let isNumber := source.indexes.any fun index =>
        index.isNumber && index.columns == [probe.cell]
      let isOwn := source.start ≤ probe.cell && probe.cell < source.start + source.width
      let isEqual := match probe.kind with
        | .equal _ => true
        | _ => false
      let isOpen :=
        if source.kind.keepsLeft then probe.owner == some i else probe.owner.isNone
      if isEqual && isOwn && isOpen && !isNumber && probe.isFitting
          && !probe.needs.contains i then
        some ⟨i, (before ++ probe.needs).eraseDups, setup, Estimate.plus depth 43, 43, true, false,
          true, [], [], sort, none⟩
      else none

/-- The ways to rows by looking up the first columns of an order, where some of them are looked up
already by the conditions used. -/
def keyed (p : LoopProblem) (fuel i : Nat) (source : LoopSource) (index : RowIndex) (sort : Nat)
    (needs : List Nat) (used : List (List Nat)) (fixed : List Bool) (rows times : Estimate) :
    List Access :=
  match fuel, index.columns[fixed.length]? with
  | fuel + 1, some cell =>
      let usable := p.usable i source cell
      let access (needs : List Nat) (used : List (List Nat)) (fixed : List Bool)
          (rows times : Estimate) (isSingle : Bool) : Access :=
        let run := Estimate.plus (Estimate.depth source.rows) (rows + RowIndex.entryCost) + times
        ⟨i, needs, 0, run,
          p.left i needs used (rows + times) source.rows, false, isSingle, true, index.columns,
          fixed, sort, none⟩
      let step := index.agreeing source.rows (fixed.length + 1)
        - index.agreeing source.rows fixed.length
      usable.flatMap fun probe =>
        let needs := (needs ++ probe.needs).eraseDups
        let used := probe.term :: used
        match probe.kind with
        | .equal _ =>
            let isSingle := times == 0 && fixed.length + 1 == index.columns.length
            access needs used (fixed ++ [true]) (rows + step) times isSingle ::
              keyed p fuel i source index sort needs used (fixed ++ [true]) (rows + step) times
        | .within count =>
            access needs used (fixed ++ [false]) (rows + step) (times + count) false ::
              keyed p fuel i source index sort needs used (fixed ++ [false]) (rows + step)
                (times + count)
        | .above =>
            access needs used fixed (bounded rows 1) times false ::
              (usable.filter fun other => other.kind == .below).map fun other =>
                access ((needs ++ other.needs).eraseDups) (other.term :: used) fixed
                  (bounded rows 2) times false
        | .below => [access needs used fixed (bounded rows 1) times false]
  | _, _ => []

/-- The number under which an order counts, given its place among those of its source: none if it
does not help to have rows in order. -/
def sortOf (p : LoopProblem) (source : LoopSource) (index : RowIndex) (n : Nat) : Nat :=
  let helps := p.sorted.any fun cell =>
    index.columns.contains cell || source.indexes.any fun other =>
      other.isNumber && other.columns == [cell]
  if helps then n + 1 else 0

/-- The ways to rows in an order. -/
def indexed (p : LoopProblem) (i : Nat) (source : LoopSource) (before : List Nat)
    (index : RowIndex) (n : Nat) : List Access :=
  let sort := p.sortOf source index n
  let entire : Access :=
    ⟨i, before, 0, source.rows + RowIndex.entryCost, p.left i before [] source.rows source.rows,
      false, false, false, index.columns, [], sort, none⟩
  (if index.isNumber || sort != 0 then [entire] else [])
    ++ p.keyed (index.columns.length + 1) i source index sort before [] [] source.rows 0

/-- What it costs to go through some branches. -/
structure SplitCost where
  needs : List Nat
  run : Estimate
  rows : Estimate

/-- Take up a cost among the three least ones. -/
def SplitCost.insert (all : List SplitCost) (c : SplitCost) : List SplitCost :=
  let least := (all.zipIdx.foldl (fun (best : Option (SplitCost × Nat)) (b, n) =>
    match best with
    | some (least, m) => if b.run < least.run then some (b, n) else some (least, m)
    | none => some (b, n)) none)
  let put (b : SplitCost) (n : Nat) : List SplitCost :=
    all.set n { c with rows := min b.rows c.rows }
  let place := all.zipIdx.findSome? fun (b, n) =>
    if c.run ≤ b.run && c.needs.all b.needs.contains then some (some (b, n))
    else if b.run ≤ c.run && b.needs.all c.needs.contains then some none
    else none
  match place with
  | some (some (b, n)) => put b n
  | some none => all
  | none =>
      if all.length < 3 then all ++ [c]
      else match least with
        | some (b, n) => if b.run ≤ c.run then all else put b n
        | none => all

/-- Whether every one of some branches says something of a column of a source. -/
def concerns (p : LoopProblem) (i : Nat) (branches : List LoopBranch) : Bool :=
  branches.all fun b => b.terms.any fun t => (t.probes ++ t.derived).any fun probe =>
    LoopTerm.sourceOf? p.sources probe.cell == some i

/-- The ways to rows through the branches of a condition with a number. -/
def splitWays (p : LoopProblem) (i : Nat) (source : LoopSource) (before : List Nat)
    (branches : List LoopBranch) (n : Nat) : List Access :=
  let costs := branches.map fun b =>
    let inner := { p with terms := b.terms, others := p.terms }
    let ways := source.indexes.flatMap fun index =>
      inner.keyed (index.columns.length + 1) i source index 0 before [] [] source.rows 0
    ways.foldl (fun all a => SplitCost.insert all ⟨a.needs, a.run, a.rows⟩) []
  match if p.concerns i branches then costs else [] with
  | first :: rest =>
      let sums := rest.foldl (fun sums costs =>
        (sums.flatMap fun a => costs.map fun b => (a, b)).foldl (fun all (a, b) =>
          SplitCost.insert all ⟨(a.needs ++ b.needs).eraseDups, Estimate.plus a.run b.run,
            Estimate.plus a.rows b.rows⟩) []) first
      sums.map fun c =>
        ⟨i, c.needs, 0, c.run + 1, c.rows, false, false, false, [], [], 0, some n⟩
  | [] => []

/-- Take up a way to rows if it is not worse than another one, which it may replace. -/
def insert (a : Access) : List Access → List Access
  | [] => [a]
  | b :: rest =>
      if supplants b then a :: rest.filter fun c => !supplants c
      else if isRival b && isEnough b then b :: rest
      else b :: insert a rest
where
  /-- Whether a way leads to rows of the same source and helps as much to have rows in order. -/
  isRival (b : Access) : Bool := b.source == a.source && b.sort == a.sort
  /-- Whether a way is never worse than the new one. -/
  isEnough (b : Access) : Bool :=
    b.needs.all a.needs.contains && b.setup ≤ a.setup && b.run ≤ a.run && b.rows ≤ a.rows
  /-- Whether a way is given up. An order that is kept anyway counts more than one that is built. -/
  supplants (b : Access) : Bool :=
    isRival b && a.needs.all b.needs.contains
      && (b.isBuilt && !a.isBuilt && a.fixed.contains true
        || !isEnough b && a.run ≤ b.run && a.rows ≤ b.rows)

/-- All ways to rows of the sources, of which some must come after all those in front of them. An
order that is built counts like the last one of the source in front. -/
def ways (p : LoopProblem) : List Access :=
  (p.sources.zipIdx.foldl (fun (ways, last) (source, i) =>
    let before := if source.kind.isOuter || source.kind.isCross then List.range i else []
    let found := p.built i source before last
      ++ (source.indexes.zipIdx.flatMap fun (index, n) => p.indexed i source before index n)
      ++ p.splits.zipIdx.flatMap fun (branches, n) => p.splitWays i source before branches n
    let last := match source.indexes.getLast? with
      | some index =>
          if p.splits.any (p.concerns i) then 0
          else p.sortOf source index (source.indexes.length - 1)
      | none => 0
    (found.foldl (fun ways a => insert a ways) ways, last)) (([] : List Access), 0)).1

end LoopProblem

end RowPolicy.Sql
