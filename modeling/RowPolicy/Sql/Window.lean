import RowPolicy.Sql.Formula

/-!
# Functions of windows

The rows of a window are those of a partition, in the order of some keys. Around every row
there is a frame: rows from one bound to another, counted in rows, in groups of rows with
the same keys, or by the distance of the keys. Ranks and shifts look at the whole
partition, everything else at the frame.
-/

namespace RowPolicy

namespace Scalar

open Sql

/-- The order in which cells are sorted, missing ones at one end. -/
def sortedBy (o : SortOrder) (a b : Scalar) : Ordering :=
  match a, b with
  | .null, .null => .eq
  | .null, _ => if o.nullsFirst then .lt else .gt
  | _, .null => if o.nullsFirst then .gt else .lt
  | a, b =>
      let order := ((o.collation.key a).cellOrder? (o.collation.key b)).getD .eq
      if o.descending then order.swap else order

/-- The order of two lists of keys. -/
def allSortedBy : List SortOrder → List Scalar → List Scalar → Ordering
  | o :: os, a :: as, b :: bs =>
      match sortedBy o a b with
      | .eq => allSortedBy os as bs
      | order => order
  | _, _, _ => .eq

end Scalar

namespace Sql

/-- A row of a window: the arguments of the function, whether the row meets its condition, its
keys, and the distances of the bounds of its frame. -/
structure WindowRow where
  args : List Scalar
  counts : Bool
  keys : List Scalar
  first : Option Scalar
  last : Option Scalar

/-- The rows of a partition in order, with what is needed to find frames. -/
structure WindowPartition where
  rows : Array WindowRow
  orders : List SortOrder
  /-- For every row the first row of its group and the row behind the group. -/
  groups : Array (Nat × Nat)
  /-- The first rows of all groups. -/
  starts : Array Nat

namespace WindowPartition

/-- The lengths of the runs of rows with the same keys. -/
def runs (orders : List SortOrder) : List WindowRow → List Nat
  | [] => []
  | row :: rest =>
      match rest, runs orders rest with
      | next :: _, n :: more =>
          if Scalar.allSortedBy orders row.keys next.keys == .eq then (n + 1) :: more
          else 1 :: n :: more
      | _, more => 1 :: more

/-- The partition of some rows that are in order. -/
def ofRows (orders : List SortOrder) (rows : List WindowRow) : WindowPartition :=
  let lengths := runs orders rows
  let bounds := (lengths.foldl (fun (groups, start) n =>
    (groups ++ [(start, start + n)], start + n)) (([] : List (Nat × Nat)), 0)).1
  ⟨rows.toArray, orders, (bounds.flatMap fun g => List.replicate (g.2 - g.1) g).toArray,
    (bounds.map Prod.fst).toArray⟩

/-- The number of rows. -/
def size (p : WindowPartition) : Nat := p.rows.size

/-- The group of a row. -/
def group (p : WindowPartition) (i : Nat) : Nat × Nat := p.groups.getD i (0, 0)

/-- The place of a row's group among the groups. -/
def groupPlace (p : WindowPartition) (i : Nat) : Nat :=
  (p.starts.toList.findIdx? (· == (p.group i).1)).getD 0

/-- The first row of the group at a place, which may be behind all groups. -/
def groupStart (p : WindowPartition) (n : Nat) : Nat := p.starts.getD n p.size

/-- A distance in rows or groups: a number that is not negative. -/
def count? (distance : Option Scalar) : Except EvalError Nat :=
  match distance.map Scalar.asNumeric with
  | some (.int n) => if 0 ≤ n then .ok n.toNat else .error .argument
  | some (.float x) =>
      match x.truncate? with
      | some n => if 0 ≤ n ∧ x.value? = some (n : Rat) then .ok n.toNat else .error .argument
      | none => .error .argument
  | _ => .error .argument

/-- The key of a row moved by a distance; other keys than numbers stay where they are. -/
def moved (p : WindowPartition) (i : Nat) (back : Bool) (distance : Option Scalar) :
    Except EvalError Scalar :=
  let key := ((p.rows[i]?.map WindowRow.keys).getD []).headD .null
  let descending := (p.orders.head?.map SortOrder.descending).getD false
  match distance.map Scalar.asNumeric with
  | some (.int n) =>
      if n < 0 then .error .argument else .ok (shift key (.int n) (back != descending))
  | some (.float x) =>
      if (x.value?.getD 0) < 0 then .error .argument
      else .ok (shift key (.float x) (back != descending))
  | _ => .error .argument
where
  /-- A number moved by a distance. -/
  shift (key distance : Scalar) (down : Bool) : Scalar :=
    match key with
    | .int _ | .float _ => (if down then Arithmetic.sub else .add).apply key distance
    | key => key

/-- The first row whose key does not come before a value. -/
def firstFrom (p : WindowPartition) (value : Scalar) : Nat :=
  let order := p.orders.headD ⟨false, true, .exact⟩
  (p.rows.toList.findIdx? fun row =>
    Scalar.sortedBy order (row.keys.headD .null) value != .lt).getD p.size

/-- The row behind the last one whose key does not come after a value. -/
def endAt (p : WindowPartition) (value : Scalar) : Nat :=
  let order := p.orders.headD ⟨false, true, .exact⟩
  (p.rows.toList.findIdx? fun row =>
    Scalar.sortedBy order (row.keys.headD .null) value == .gt).getD p.size

/-- The first row of a frame around a row. -/
def frameStart {φ : Type} (p : WindowPartition) (f : Frame φ) (i : Nat) (distance : Option Scalar) :
    Except EvalError Nat :=
  match f.first, f.unit with
  | .start, _ => .ok 0
  | .stop, _ => .ok p.size
  | .current, .rows => .ok i
  | .current, _ => .ok (p.group i).1
  | .preceding _, .rows => do return i - (← count? distance)
  | .following _, .rows => do return i + (← count? distance)
  | .preceding _, .groups => do
      let n ← count? distance
      return if p.groupPlace i < n then 0 else p.groupStart (p.groupPlace i - n)
  | .following _, .groups => do return p.groupStart (p.groupPlace i + (← count? distance))
  | .preceding _, .range => do return p.firstFrom (← p.moved i true distance)
  | .following _, .range => do return p.firstFrom (← p.moved i false distance)

/-- The row behind the last row of a frame around a row. -/
def frameEnd {φ : Type} (p : WindowPartition) (f : Frame φ) (i : Nat) (distance : Option Scalar) :
    Except EvalError Nat :=
  match f.last, f.unit with
  | .start, _ => .ok 0
  | .stop, _ => .ok p.size
  | .current, .rows => .ok (i + 1)
  | .current, _ => .ok (p.group i).2
  | .preceding _, .rows => do return i + 1 - (← count? distance)
  | .following _, .rows => do return i + 1 + (← count? distance)
  | .preceding _, .groups => do
      let n ← count? distance
      return if p.groupPlace i < n then 0 else p.groupStart (p.groupPlace i - n + 1)
  | .following _, .groups => do return p.groupStart (p.groupPlace i + (← count? distance) + 1)
  | .preceding _, .range => do return p.endAt (← p.moved i true distance)
  | .following _, .range => do return p.endAt (← p.moved i false distance)

/-- The rows of the frame around a row. -/
def frame {φ : Type} (p : WindowPartition) (f : Frame φ) (i : Nat) :
    Except EvalError (List WindowRow) := do
  let row := p.rows[i]?
  let start ← p.frameStart f i (row.bind WindowRow.first)
  let stop ← p.frameEnd f i (row.bind WindowRow.last)
  let (low, high) := p.group i
  let places := ((List.range (Nat.min stop p.size)).drop start).filter fun j =>
    match f.exclusion with
    | .nothing => true
    | .row => j != i
    | .group => !(low ≤ j && j < high)
    | .ties => j == i || !(low ≤ j && j < high)
  return places.filterMap fun j => p.rows[j]?

/-- The bucket of a row, if so many rows are spread over so many buckets. -/
def bucket (size count i : Nat) : Nat :=
  let each := size / count
  if each = 0 then i + 1
  else
    let larger := size - count * each
    let small := larger * (each + 1)
    if i < small then 1 + i / (each + 1) else 1 + larger + (i - small) / each

/-- The double of a quotient. -/
def quotient (a b : Nat) : Scalar := .float (.ofQuotient false a b)

/-- The value of a function on a row. -/
def value {φ : Type} (p : WindowPartition) (c : WindowCall φ) (i : Nat) :
    Except EvalError Scalar := do
  let args := (p.rows[i]?.map WindowRow.args).getD []
  match c.function with
  | .rowNumber => return .int (i + 1)
  | .rank => return .int ((p.group i).1 + 1)
  | .denseRank => return .int (p.groupPlace i + 1)
  | .percentRank =>
      if p.size ≤ 1 then return quotient 0 1
      return quotient (p.group i).1 (p.size - 1)
  | .cumulative => return quotient (p.group i).2 p.size
  | .bucket =>
      let count := (((p.rows[0]?.map WindowRow.args).getD []).headD .null).integerValue
      if count ≤ 0 then throw .argument
      return .int (bucket p.size count.toNat i)
  | .shifted ahead =>
      let distance := match args[1]? with
        | some x => x.asNumeric
        | none => .int 1
      let place : Option Int := match distance with
        | .int n => some (if ahead then i + n else i - n)
        | _ => none
      match place with
      | some n =>
          if 0 ≤ n then
            match p.rows[n.toNat]? with
            | some row => return row.args.headD .null
            | none => return args.getD 2 .null
          else return args.getD 2 .null
      | none => return args.getD 2 .null
  | .first => return (((← p.frame c.frame i).head?.map WindowRow.args).getD []).headD .null
  | .last => return (((← p.frame c.frame i).getLast?.map WindowRow.args).getD []).headD .null
  | .nth =>
      match (args.getD 1 .null).asNumeric with
      | .int n =>
          if n ≤ 0 then throw .argument
          return ((((← p.frame c.frame i)[n.toNat - 1]?).map WindowRow.args).getD []).headD .null
      | _ => throw .argument
  | .aggregate f =>
      let rows := (← p.frame c.frame i).filter WindowRow.counts
      f.apply c.collation (rows.map WindowRow.args)

end WindowPartition

end Sql

end RowPolicy
