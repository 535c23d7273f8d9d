import RowPolicy.Sql.Row
import RowPolicy.Sql.Window

/-!
# Running plans

A plan is run with the values passed to the statement and the rows at hand on the levels
around it. Sources are joined from left to right, the rows for which the conditions hold
are grouped if that is asked for, windows are looked through, and what is shown is sorted
and cut at last. Two operands are compared by the affinities of the columns or casts that
they come from. Every function that runs a part of a plan is given more fuel than there
are levels in it.
-/

namespace RowPolicy

namespace Scalar

open Sql

/-- The order of two cells under a collation, after an affinity is applied. -/
def orderWith? (k : Collation) (f : Affinity) (a b : Scalar) : Option Ordering :=
  (k.key (f.applied a)).cellOrder? (k.key (f.applied b))

/-- Whether two cells are the same under a collation; missing cells are. -/
def sameUnder (k : Collation) (a b : Scalar) : Bool :=
  if a = null ∨ b = null then a == b else (k.key a).cellOrder? (k.key b) == some .eq

/-- Whether the cells of two rows are the same. -/
def allSame : List Collation → List Scalar → List Scalar → Bool
  | k :: ks, a :: as, b :: bs => sameUnder k a b && allSame ks as bs
  | _, _, _ => true

/-- The truth of two cells being equal. -/
def equalWith (k : Collation) (f : Affinity) (a b : Scalar) : Truth :=
  match orderWith? k f a b with
  | some o => .ofBool (Relation.eq.holds o)
  | none => .unknown

/-- The truth of two rows of cells being equal. -/
def equalRows : List Collation → List Affinity → List Scalar → List Scalar → Truth
  | k :: ks, f :: fs, a :: as, b :: bs =>
      (equalWith k f a b).and (equalRows ks fs as bs)
  | _, _, _, _ => .yes

/-- The truth of a comparison of two rows of cells, of which the first different cells
decide. -/
def compareRows (r : Relation) :
    List Collation → List Affinity → List Scalar → List Scalar → Truth
  | k :: ks, f :: fs, a :: as, b :: bs =>
      match orderWith? k f a b, as with
      | none, _ => .unknown
      | some .eq, _ :: _ => compareRows r ks fs as bs
      | some o, _ => Truth.ofBool (r.holds o)
  | _, _, _, _ => .unknown

/-- The truth of a row of cells being among others. -/
def amongRows (ks : List Collation) (fs : List Affinity) (cells : List Scalar) :
    List (List Scalar) → Truth
  | [] => .no
  | row :: rest => (equalRows ks fs cells row).or (amongRows ks fs cells rest)

end Scalar

namespace Sql

/-- What is known of the row at hand on a level. -/
structure Focus where
  cells : List Scalar
  aggregates : List Scalar
  windows : List Scalar

/-- A row without anything computed from other rows. -/
def Focus.ofCells (cells : List Scalar) : Focus := ⟨cells, [], []⟩

/-- Where a plan is run. -/
structure Situation where
  db : Database
  /-- The values passed to the statement. -/
  values : List Scalar
  /-- The rows at hand of recursive queries. -/
  working : List (Nat × List Scalar)
  /-- The rows at hand, outermost level first. -/
  levels : List Focus

namespace Situation

/-- The situation in which a row is at hand on a level. -/
def withRow (s : Situation) (level : Nat) (row : Focus) : Situation :=
  let outer := s.levels.take level
  let missing := List.replicate (level - outer.length) (Focus.ofCells [])
  { s with levels := outer ++ missing ++ [row] }

/-- The row at hand on a level. -/
def focus (s : Situation) (level : Nat) : Focus := s.levels.getD level (.ofCells [])

end Situation

/-- Whether a body shows a single row without sources that does not count as a group of its sort
keys. -/
def Body.isSingle (orders : List SortOrder) : Body → Bool
  | .rows _ shown keys [] _ _ _ _ =>
      !Formula.sameAll keys shown || orders.any fun order => order.descending || !order.nullsFirst
  | _ => false

namespace Plan

/-- Rows without repetitions; the first one of equal rows stays. -/
def withoutRepeats {α : Type} (ks : List Collation) (cells : α → List Scalar) (rows : List α) :
    List α :=
  (rows.foldl (fun seen row =>
    if seen.any fun other => Scalar.allSame ks (cells other) (cells row) then seen
    else row :: seen) []).reverse

/-- Rows sorted by keys. -/
def sorted {α : Type} (orders : List SortOrder) (keys : α → List Scalar) (rows : List α) : List α :=
  if orders.isEmpty then rows
  else rows.mergeSort fun a b => Scalar.allSortedBy orders (keys a) (keys b) != .gt

/-- The rows of two queries put together. If repetitions are dropped, the rows come in order, and
the last one of equal rows stays. -/
def combine (op : SetOp) (ks : List Collation) (l r : List (List Scalar)) : List (List Scalar) :=
  let orders := ks.map fun k => (⟨false, true, k⟩ : SortOrder)
  let distinct (rows : List (List Scalar)) : List (List Scalar) :=
    sorted orders id (withoutRepeats ks id rows.reverse)
  let isIn (rows : List (List Scalar)) (row : List Scalar) : Bool :=
    rows.any fun other => Scalar.allSame ks other row
  match op with
  | .unionAll => l ++ r
  | .union => distinct (l ++ r)
  | .except => (distinct l).filter fun row => !isIn r row
  | .intersect => (distinct l).filter (isIn r)

/-- The integer of a limit: a number without a fraction, or a numeral that is one. -/
def whole (cell : Scalar) : Except EvalError Int :=
  match cell.asNumeric with
  | .int n => .ok n
  | .bool b => .ok (if b then 1 else 0)
  | .float x =>
      match x.truncate? with
      | some n => if Scalar.fits n && x.value? == some (n : Rat) then .ok n else .error .notWhole
      | none => .error .notWhole
  | _ => .error .notWhole

/-- The part of some rows that an offset and a limit leave; a negative limit is none. -/
def limited {α : Type} (limit offset : Option Int) (rows : List α) : List α :=
  let rows := rows.drop (offset.getD 0).toNat
  match limit with
  | some n => if n < 0 then rows else rows.take n.toNat
  | none => rows

/-- Rows one after another that have the same keys. -/
def runs {α : Type} (orders : List SortOrder) (keys : α → List Scalar) (rows : List α) :
    List (List α) :=
  rows.foldr (fun row groups =>
    match groups with
    | (other :: more) :: rest =>
        if Scalar.allSortedBy orders (keys row) (keys other) == .eq then
          (row :: other :: more) :: rest
        else [row] :: (other :: more) :: rest
    | groups => [row] :: groups) []

/-- Rows in groups with the same keys, in the order of the keys. -/
def grouped {α : Type} (orders : List SortOrder) (keys : α → List Scalar) (rows : List α) :
    List (List α) := runs orders keys (sorted orders keys rows)

/-- A row that is found in loops: its cells, the places at which its parts are found, and for every
loop the number of the branch in which it is met. -/
structure Found where
  cells : List Scalar
  places : List Nat
  branches : List Nat

/-- The order in which a loop with a number meets two rows. -/
def meets (loop : Loop Formula) (n : Nat) (a b : Found) : Ordering :=
  let orders := loop.sorted.map fun _ => (⟨false, true, .exact⟩ : SortOrder)
  let cells (row : Found) : List Scalar := loop.sorted.map fun n => row.cells.getD n .null
  let order := (compare (a.branches.getD n 0) (b.branches.getD n 0)).then
    ((Scalar.allSortedBy orders (cells a) (cells b)).then
      (compare (a.places.getD loop.source 0) (b.places.getD loop.source 0)))
  if loop.isReversed then order.swap else order

/-- Whether some loops meet a row before another one, where the outer loops count first. -/
def comesFirst (loops : List (Loop Formula)) (a b : Found) : Bool :=
  loops.zipIdx.foldr (fun (loop, n) rest => (meets loop n a b).then rest) .eq != .gt

/-- The rows that are found from some others within a number of steps, those others first. -/
def closure {ε : Type} (fuel : Nat) (next : List Scalar → Except ε (List (List Scalar)))
    (isNew : List (List Scalar) → List Scalar → Bool)
    (arrange : List (List Scalar) → List (List Scalar)) (seen queue : List (List Scalar)) :
    Except ε (List (List Scalar)) :=
  match fuel, queue with
  | 0, _ => .ok []
  | _, [] => .ok []
  | fuel + 1, row :: rest => do
      let found := (← next row).foldl (fun fresh other =>
        if isNew (fresh ++ seen) other then fresh ++ [other] else fresh) []
      let more ← closure fuel next isNew arrange (found ++ seen) (arrange (rest ++ found))
      return row :: more

/-- The greatest number of rows of a recursive query. -/
def recursionLimit : Nat := 20000

/-- Rows of which those that repeat an earlier one are left out. -/
def passedOnce {α : Type} (ks : List Collation) (cells : α → List Scalar)
    (rows : List (Option α)) : List (Option α) :=
  (rows.foldl (fun (seen, passed) row =>
    match row with
    | none => (seen, none :: passed)
    | some x =>
        if seen.any fun other => Scalar.allSame ks (cells other) (cells x) then
          (seen, none :: passed)
        else (x :: seen, some x :: passed)) (([] : List α), ([] : List (Option α)))).2.reverse

/-- An extreme that is looked for among the rows of a group. -/
structure Extreme where
  call : AggregateCall Formula
  /-- Whether a row that it leaves out counts as missed, except for the first row. -/
  misses : Bool
  best : Option Scalar

/-- The extremes after a row, and whether the last one that looked at the row was missed. Of each
extreme the value on the row is given, if it does not leave out the row. -/
def Extreme.look (isFirst : Bool) : List (Extreme × Option Scalar) → Bool → List Extreme × Bool
  | [], missed => ([], missed)
  | (e, value) :: rest, missed =>
      let missed := if e.misses then !isFirst else missed
      let (e, missed) := match value, e.best with
        | none, _ => (e, missed)
        | some v, none => ({ e with best := if v = .null then none else some v }, false)
        | some v, some b =>
            if v ≠ .null && e.call.aggregate.prefers e.call.collation b v then
              ({ e with best := some v }, false)
            else (e, true)
      let (rest, missed) := Extreme.look isFirst rest missed
      (e :: rest, missed)

/-- The row of a group from which cells are taken: the last one on which no extreme was missed,
or the first one if none is looked for. Of each row the values of the extremes are given. -/
def representative (isGrouped : Bool) (calls : List (AggregateCall Formula))
    (rows : List (List Scalar × List (Option Scalar))) : Option (List Scalar) :=
  let filtered := isGrouped || calls.all fun call => call.filter.isSome
  let extremes := calls.map fun call => (⟨call, filtered && call.filter.isSome, none⟩ : Extreme)
  if extremes.isEmpty then rows.head?.map Prod.fst
  else
    (rows.foldl (fun (chosen, extremes, missed) (row, values) =>
      let (extremes, missed) := Extreme.look chosen.isNone (extremes.zip values) missed
      (if missed then chosen else some row, extremes, missed))
      ((none : Option (List Scalar)), extremes, false)).1

end Plan

mutual

/-- The value of a formula. -/
def Formula.eval (fuel : Nat) (s : Situation) (x : Formula) : Except EvalError Scalar := do
  match fuel with
  | 0 => throw .argument
  | fuel + 1 =>
      match x with
      | .literal v => return v
      | .truth b => return .int (if b then 1 else 0)
      | .parameter place => return (s.values.getD (place - 1) .null).plain
      | .cell level index _ _ => return (s.focus level).cells.getD index .null
      | .aggregate level index _ => return (s.focus level).aggregates.getD index .null
      | .window level index _ => return (s.focus level).windows.getD index .null
      | .unary op x => return op.apply (← x.eval fuel s)
      | .binary .and _ x y =>
          let a ← x.eval fuel s
          if a.truth = .no then return .int 0
          return (a.truth.and (← y.eval fuel s).truth).cell
      | .binary .or _ x y =>
          let a ← x.eval fuel s
          if a.truth = .yes then return .int 1
          return (a.truth.or (← y.eval fuel s).truth).cell
      | .binary op k x y =>
          let a ← x.eval fuel s
          let b ← y.eval fuel s
          match op with
          | .relation _ | .same =>
              let f := x.affinity.common y.affinity
              return op.apply k .none (f.applied a) .none (f.applied b)
          | op => return op.apply k .none a .none b
      | .rows op ks xs ys =>
          let as ← xs.mapM (Formula.eval fuel s)
          let bs ← ys.mapM (Formula.eval fuel s)
          let fs := (xs.zip ys).map fun (x, y) => x.affinity.common y.affinity
          match op with
          | .same =>
              let applied (cells : List Scalar) : List Scalar :=
                (fs.zip cells).map fun (f, cell) => f.applied cell
              return (Truth.ofBool (Scalar.allSame ks (applied as) (applied bs))).cell
          | .relation .eq => return (Scalar.equalRows ks fs as bs).cell
          | .relation .ne => return (Scalar.equalRows ks fs as bs).not.cell
          | .relation r => return (Scalar.compareRows r ks fs as bs).cell
          | _ => return .null
      | .choose conditions values otherwise =>
          let found ← (conditions.zip values).findSomeM? fun (condition, value) => do
            if (← condition.eval fuel s).truth = .yes then return some value else return none
          (found.getD otherwise).eval fuel s
      | .call .coalesce _ args | .call .ifNull _ args | .merged args =>
          let found ← args.findSomeM? fun x => do
            let a ← x.eval fuel s
            return if a = .null then none else some a
          return found.getD .null
      | .call (.json f binary) _ args =>
          return (← f.apply binary (← args.mapM (Formula.evalMarked fuel s))).1
      | .call f k args => f.apply k (← args.mapM (Formula.eval fuel s))
      | .member k x items =>
          let a ← x.eval fuel s
          let found ← items.foldlM (fun found y => do
            if found = Truth.yes then return found
            return found.or (Scalar.equalWith k x.affinity a (← y.eval fuel s))) .no
          return found.cell
      | .among ks xs affinities p =>
          let as ← xs.mapM (Formula.eval fuel s)
          let fs := (xs.zip affinities).map fun (x, g) => x.affinity.common g
          return (Scalar.amongRows ks fs as (← p.run fuel s)).cell
      | .exists p => return (Truth.ofBool !(← p.run fuel s).isEmpty).cell
      | .first p column _ =>
          match ← p.run fuel s with
          | row :: _ => return row.getD column .null
          | [] => return (← p.leftOver fuel s).getD column .null

/-- The value of a formula, marked if it is JSON. -/
def Formula.evalMarked (fuel : Nat) (s : Situation) (x : Formula) :
    Except EvalError JsonFunction.Marked := do
  match fuel with
  | 0 => throw .argument
  | fuel + 1 =>
      match x with
      | .call (.json f binary) _ args =>
          f.apply binary (← args.mapM (Formula.evalMarked fuel s))
      | .unary .plus x | .unary (.collate _) x | .call .hint _ [x] | .call .likelihood _ [x, _] =>
          x.evalMarked fuel s
      | .unary (.cast kind) x =>
          let a ← x.evalMarked fuel s
          return (kind.cast a.1, a.2)
      | .call .nullIf _ args | .call .max _ args | .call .min _ args =>
          let marked ← args.mapM (Formula.evalMarked fuel s)
          let a ← x.eval fuel s
          return (a, marked.any fun b => b.2 && b.1 == a)
      | .choose conditions values otherwise =>
          let found ← (conditions.zip values).findSomeM? fun (condition, value) => do
            if (← condition.eval fuel s).truth = .yes then return some value else return none
          (found.getD otherwise).evalMarked fuel s
      | .call .coalesce _ args | .call .ifNull _ args =>
          let found ← args.findSomeM? fun x => do
            let a ← x.evalMarked fuel s
            return if a.1 = .null then none else some a
          return found.getD (.null, false)
      | x => return (← x.eval fuel s, false)

/-- Whether some conditions hold. -/
def Formula.allHold (fuel : Nat) (s : Situation) (conditions : List Formula) :
    Except EvalError Bool := do
  match fuel with
  | 0 => throw .argument
  | fuel + 1 =>
      match conditions with
      | [] => return true
      | x :: rest =>
          if (← x.eval fuel s).truth = .yes then Formula.allHold fuel s rest else return false

/-- The number of the first ones among some conditions that hold. -/
def Formula.firstHeld (fuel : Nat) (s : Situation) (branches : List (List Formula)) : Nat :=
  match fuel with
  | 0 => 0
  | fuel + 1 =>
      match branches with
      | [] => 0
      | conditions :: rest =>
          match Formula.allHold fuel s conditions with
          | .ok true => 0
          | _ => Formula.firstHeld fuel s rest + 1

/-- The rows of a plan. -/
def Plan.run (fuel : Nat) (s : Situation) (p : Plan) : Except EvalError (List (List Scalar)) := do
  match fuel with
  | 0 => throw .argument
  | fuel + 1 =>
      match p with
      | .mk level body columns orders limit offset =>
          let limit ← limit.mapM fun x => do Plan.whole (← x.eval fuel s)
          if limit = some 0 then return []
          let offset ← offset.mapM fun x => do Plan.whole (← x.eval fuel s)
          let rows ← body.run fuel s level
          let keys (row : List Scalar × List Scalar) : List Scalar :=
            row.2 ++ columns.map fun n => row.1.getD n .null
          return Plan.limited limit offset ((Plan.sorted orders keys rows).map Prod.fst)
      | .recursive _ id start steps distinct columns orders limit offset =>
          let limit ← limit.mapM fun x => do Plan.whole (← x.eval fuel s)
          if limit = some 0 then return []
          let offset ← offset.mapM fun x => do Plan.whole (← x.eval fuel s)
          let initial ← start.run fuel s
          let keys (row : List Scalar) : List Scalar := columns.map fun n => row.getD n .null
          let next (row : List Scalar) : Except EvalError (List (List Scalar)) := do
            let found ← steps.mapM (Plan.run fuel { s with working := (id, row) :: s.working })
            return found.flatten
          let isNew (seen : List (List Scalar)) (row : List Scalar) : Bool :=
            match distinct with
            | some ks => !seen.any fun other => Scalar.allSame ks other row
            | none => true
          let start := match distinct with
            | some ks => Plan.withoutRepeats ks (fun row => row) initial
            | none => initial
          let wanted := match limit with
            | some n => if n < 0 then Plan.recursionLimit else n.toNat + (offset.getD 0).toNat
            | none => Plan.recursionLimit
          let arrange := Plan.sorted orders keys
          let seen := if distinct.isSome then start else []
          let rows ← Plan.closure (Nat.min wanted Plan.recursionLimit) next isNew arrange seen
            (arrange start)
          return Plan.limited limit offset rows

/-- What stays of a query that finds no row because an offset skips all of them: the last row that
was looked at to leave out repetitions. -/
def Plan.leftOver (fuel : Nat) (s : Situation) (p : Plan) : Except EvalError (List Scalar) := do
  match fuel with
  | 0 => throw .argument
  | fuel + 1 =>
      match p with
      | .mk level body _ orders limit (some _) =>
          let limit ← limit.mapM fun x => do Plan.whole (← x.eval fuel s)
          if limit = some 0 || !(orders.isEmpty || body.isSingle orders) then return []
          return (← body.lookedAt fuel s level).getLast?.getD []
      | _ => return []

/-- The rows that are looked at to leave out repetitions. -/
def Body.lookedAt (fuel : Nat) (s : Situation) (level : Nat) (b : Body) :
    Except EvalError (List (List Scalar)) := do
  match fuel with
  | 0 => throw .argument
  | fuel + 1 =>
      match b with
      | .rows _ _ _ _ _ _ (some (.mk [] _ _ _ _)) _ | .rows none _ _ _ _ _ _ _ => return []
      | .rows _ shown keys sources loops condition grouping windows =>
          let rows ← (Body.rows none shown keys sources loops condition grouping windows).run fuel s
            level
          return rows.map Prod.fst
      | .combined .unionAll _ l r =>
          return (← l.lookedAt fuel s level) ++ (← r.lookedAt fuel s level)
      | _ => return []

/-- The rows of the body of a query, with their sort keys. -/
def Body.run (fuel : Nat) (s : Situation) (level : Nat) (b : Body) :
    Except EvalError (List (List Scalar × List Scalar)) := do
  match fuel with
  | 0 => throw .argument
  | fuel + 1 =>
      match b with
      | .values rows =>
          rows.mapM fun row => do return (← row.mapM (Formula.eval fuel s), [])
      | .combined op ks l r =>
          let left ← l.run fuel s level
          let right ← r.run fuel s level
          return (Plan.combine op ks (left.map Prod.fst) (right.map Prod.fst)).map fun row =>
            (row, [])
      | .rows distinct shown keys sources loops condition grouping windows =>
          let found ← Joined.allRows fuel s level [] sources
          let rows := if loops.isAsWritten then found.map Prod.fst
            else
              let found := found.map fun (row, places) =>
                let here := s.withRow level (.ofCells row)
                let branches := loops.order.map fun loop =>
                  Formula.firstHeld fuel here loop.branches
                (⟨row, places, branches⟩ : Plan.Found)
              (found.mergeSort (Plan.comesFirst loops.order)).map Plan.Found.cells
          let rows ← rows.filterM fun row =>
            Formula.allHold fuel (s.withRow level (.ofCells row)) condition
          let foci ← match grouping with
            | none => pure (rows.map Focus.ofCells)
            | some g => g.run fuel s level (Joined.absent fuel s sources) rows
          let foci ← Focus.withWindows fuel s level foci windows
          let results ← foci.mapM fun focus => do
            let here := s.withRow level focus
            return (← shown.mapM (Formula.eval fuel here), ← keys.mapM (Formula.eval fuel here))
          match distinct with
          | some ks => return Plan.withoutRepeats ks Prod.fst results
          | none => return results

/-- The groups of some rows for which the condition on groups holds. A row is given that stands for
a group without rows. -/
def Grouping.run (fuel : Nat) (s : Situation) (g : Grouping) (level : Nat)
    (absent : List Scalar) (rows : List (List Scalar)) : Except EvalError (List Focus) := do
  match fuel with
  | 0 => throw .argument
  | fuel + 1 =>
      match g with
      | .mk groups orders inOrder aggregates having =>
          let keyed ← rows.mapM fun row => do
            return (← groups.mapM (Formula.eval fuel (s.withRow level (.ofCells row))), row)
          let isGrouped := !groups.isEmpty
          let groups :=
            if groups.isEmpty then [rows]
            else
              let grouped := if inOrder then Plan.runs orders Prod.fst keyed
                else Plan.grouped orders Prod.fst keyed
              grouped.map fun group => group.map Prod.snd
          let foci ← groups.mapM fun group => do
            let found ← aggregates.mapM fun call => do
              let args ← group.mapM fun row => do
                let here := s.withRow level (.ofCells row)
                if ← Formula.allHold fuel here call.filter.toList then
                  return some (← call.args.mapM (Formula.eval fuel here),
                    ← call.keys.mapM (Formula.eval fuel here))
                else return none
              let args := if call.distinct then
                Plan.passedOnce [call.collation] Prod.fst args else args
              let sorted := Plan.sorted call.orders Prod.snd (args.filterMap id)
              let value ← call.aggregate.apply call.collation (sorted.map Prod.fst)
              return (value, call, args.map fun entry => entry.bind fun x => x.1.head?)
            let extremes := (found.map Prod.snd).filter fun entry => entry.1.aggregate.isExtreme
            let values := group.zipIdx.map fun (_, i) =>
              extremes.map fun entry => (entry.2[i]?).join
            let chosen := Plan.representative isGrouped (extremes.map Prod.fst) (group.zip values)
            return (⟨chosen.getD absent, found.map Prod.fst, []⟩ : Focus)
          foci.filterM fun focus => Formula.allHold fuel (s.withRow level focus) having.toList

/-- Rows with the values of functions of windows. The rows come in the order of the first
window. -/
def Focus.withWindows (fuel : Nat) (s : Situation) (level : Nat) (foci : List Focus)
    (windows : List (WindowCall Formula)) : Except EvalError (List Focus) := do
  match fuel with
  | 0 => throw .argument
  | fuel + 1 =>
      match windows with
      | [] => return foci
      | call :: rest =>
          let foci ← Focus.withWindows fuel s level foci rest
          let keyed ← foci.mapM fun focus => do
            let here := s.withRow level focus
            let distance : FrameBound Formula → Except EvalError (Option Scalar)
              | .preceding x | .following x => some <$> x.eval fuel here
              | _ => return none
            let row : WindowRow := {
              args := ← call.args.mapM (Formula.eval fuel here)
              counts := ← Formula.allHold fuel here call.filter.toList
              keys := ← call.keys.mapM (Formula.eval fuel here)
              first := ← distance call.frame.first
              last := ← distance call.frame.last }
            return (← call.partition.mapM (Formula.eval fuel here), row, focus)
          let groups :=
            if call.partition.isEmpty then (if keyed.isEmpty then [] else [keyed])
            else Plan.grouped call.partitionOrders Prod.fst keyed
          let results ← groups.mapM fun group => do
            let group := Plan.sorted call.orders (fun entry => entry.2.1.keys) group
            let p := WindowPartition.ofRows call.orders (group.map fun entry => entry.2.1)
            group.zipIdx.mapM fun (entry, i) => do
              let focus := entry.2.2
              return { focus with windows := (← p.value call i) :: focus.windows }
          return results.flatten

/-- The rows of some sources joined one after another behind a row, with the places of their parts
in the sources. -/
def Joined.allRows (fuel : Nat) (s : Situation) (level : Nat) (front : List Scalar)
    (sources : List Joined) : Except EvalError (List (List Scalar × List Nat)) := do
  match fuel with
  | 0 => throw .argument
  | fuel + 1 =>
      let (rows, _) ← sources.foldlM (fun (rows, width) source => do
        let .mk kind body count on := source
        let missing := List.replicate width .null
        let holds (row : List Scalar) : Except EvalError Bool :=
          Formula.allHold fuel (s.withRow level (.ofCells row)) on
        let same ← if body.isWalk then pure [] else body.run fuel s level missing
        let matched ← rows.mapM fun (l, places) => do
          let right ← if body.isWalk then body.run fuel (s.withRow level (.ofCells l)) level l
            else pure same
          let found ← right.zipIdx.filterM fun (r, _) => holds (l ++ r)
          return ((l, places), found)
        let joined := matched.flatMap fun ((l, places), found) =>
          if found.isEmpty && kind.keepsLeft then
            [(l ++ List.replicate count .null, places ++ [0])]
          else found.map fun (r, n) => (l ++ r, places ++ [n])
        let used := matched.flatMap fun (_, found) => found.map Prod.snd
        let alone := if kind.keepsRight then
            (same.zipIdx.filter fun (_, n) => !used.contains n).map fun (r, n) =>
              (missing ++ r, [n])
          else []
        return (joined ++ alone, width + count))
        ([(front, ([] : List Nat))], front.length)
      return rows

/-- The row that stands for the rows of some sources where there are none. What a query of rows
shows of itself is still computed, from missing values. -/
def Joined.absent (fuel : Nat) (s : Situation) (sources : List Joined) : List Scalar :=
  match fuel with
  | 0 => []
  | fuel + 1 =>
      sources.flatMap fun
        | .mk kind body count _ =>
            let known := match body with
              | .plan (.mk level (.rows none shown _ (first :: rest) _ _ none []) [] [] none
                    none) =>
                  if kind.isOuter then []
                  else
                    let row := Joined.absent fuel s (first :: rest)
                    shown.map fun x =>
                      ((x.eval fuel (s.withRow level (.ofCells row))).toOption).getD .null
              | _ => []
            known ++ List.replicate (count - known.length) .null

/-- The rows of a source. -/
def RowSource.run (fuel : Nat) (s : Situation) (source : RowSource) (level : Nat)
    (front : List Scalar) : Except EvalError (List (List Scalar)) := do
  match fuel with
  | 0 => throw .argument
  | fuel + 1 =>
      match source with
      | .table name => return (s.db.rows name).map (s.db.cellsOf name)
      | .plan p => p.run fuel s
      | .working id => return (s.working.find? fun entry => entry.1 == id).toList.map Prod.snd
      | .walk all args => JsonFunction.walk all (← args.mapM (Formula.eval fuel s))
      | .nested sources =>
          let rows ← Joined.allRows fuel s level front sources
          return rows.map fun row => row.1.drop front.length

end

end Sql

end RowPolicy
