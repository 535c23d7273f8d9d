import RowPolicy.Sql.Formula.Loops
import RowPolicy.Sql.Row

/-!
# The loops of a selection

The sources of a selection are looked at for what is known of their rows, and its conditions for
what they say of the sources. A source whose rows without a partner are all refused by the
conditions behind the joins is joined like any other.
-/

namespace RowPolicy.Sql

/-- The estimated number of rows of a table. -/
def tableRows : Estimate := 200

/-- The least of the estimates of some rows and of a limit. -/
def limitedRows (rows : Estimate) : Option Formula → Estimate
  | some (.literal (.int n)) => if n < 0 then rows else min rows (.ofNat n.toNat)
  | _ => rows

/-- The estimated number of rows of the body of a query. -/
def Body.expected : Body → Estimate
  | .rows _ _ _ _ loops _ grouping _ =>
      match grouping with
      | none => loops.rows
      | some (.mk groups _ _ _ _) => if groups.isEmpty then 0 else min 66 loops.rows
  | .values listed => listed.length
  | .combined op _ l r =>
      match op with
      | .unionAll | .union => Estimate.plus l.expected r.expected
      | .except => l.expected
      | .intersect => min l.expected r.expected

/-- The estimated number of rows of a plan. -/
def Plan.expected : Plan → Estimate
  | .mk _ body _ _ limit _ => limitedRows body.expected limit
  | .recursive _ _ _ _ _ _ _ limit _ => limitedRows tableRows limit

/-- A query that shows rows of a single table in the order in which they are kept. -/
structure PlainRows where
  table : String
  level : Nat
  width : Nat
  shown : List Formula
  condition : List Formula

/-- A plan as a query of a single table, if it is one. -/
def Plan.plain? : Plan → Option PlainRows
  | .mk level (.rows none shown [] [.mk _ (.table table) width []] _ condition none []) _ [] none
      none => some ⟨table, level, width, shown, condition⟩
  | _ => none

namespace Formula

/-- Whether a condition does not hold where all of some cells of a level are missing. -/
def refuses (level : Nat) (mine : Nat → Bool) : Formula → Bool
  | cell l index _ _ => l == level && mine index
  | binary .and _ x y | binary .or _ x y => x.refuses level mine && y.refuses level mine
  | binary .same _ _ _ => false
  | binary _ _ x y => x.refuses level mine || y.refuses level mine
  | unary .isNull _ | unary .isTrue _ | unary .isFalse _ => false
  | unary _ x => x.refuses level mine
  | member _ x items => !items.isEmpty && x.refuses level mine
  | _ => false

/-- Whether some conditions do not hold where all of some cells of a level are missing. Only of the
first one it counts that it asks for a value to be there. -/
def anyRefuses (level : Nat) (mine : Nat → Bool) : List Formula → Bool
  | unary .not (unary .isNull x) :: rest => x.refuses level mine || rest.any (refuses level mine)
  | conditions => conditions.any (refuses level mine)

/-- A condition in which it is settled that some cells of a level are not missing. -/
def settled (level : Nat) (isThere : Nat → Bool) : Formula → Formula
  | unary .isNull (cell l index affinity collation) =>
      if l == level && isThere index then truth false
      else unary .isNull (cell l index affinity collation)
  | unary .not x => unary .not (x.settled level isThere)
  | binary .and k x y => binary .and k (x.settled level isThere) (y.settled level isThere)
  | binary .or k x y => binary .or k (x.settled level isThere) (y.settled level isThere)
  | x => x

/-- A formula without the collation that it asks for at its outside. -/
def plain : Formula → Formula
  | unary (.collate _) x => x.plain
  | x => x

end Formula

/-- A source with the conditions on which it is joined. -/
structure LoopPart where
  source : LoopSource
  /-- Conditions on its rows alone. -/
  own : List LoopTerm
  on : List Formula

namespace LoopPart

/-- The orders in which the rows of a table are kept, its cells starting at an index. -/
def indexesOf (db : Database) (table : String) (start : Nat) : List RowIndex :=
  let columns := db.columns table
  let place (c : Column) : Option Nat := columns.findIdx? fun other => other.name == c.name
  let number := ((db.rowNumber? table).bind place).getD columns.length
  let key := (db.key table).filterMap place
  ⟨[start + number], true⟩ ::
    if key.isEmpty then [] else [⟨key.map fun n => start + n, false⟩]

/-- What is known of a source whose cells start at an index. -/
def ofJoined (db : Database) (fuel i start : Nat) (j : Joined) : LoopPart :=
  let .mk kind rows width on := j
  let source (rows : Estimate) (isStored isSortable : Bool) (indexes : List RowIndex) :
      LoopSource :=
    ⟨kind, start, width, rows, isStored, isSortable, indexes⟩
  match rows with
  | .table table => ⟨source tableRows true true (indexesOf db table start), [], on⟩
  | .plan p =>
      match p.plain? with
      | some plain =>
          let moved (index : RowIndex) : Option RowIndex := do
            let columns ← index.columns.mapM fun cell => plain.shown.findIdx? fun x =>
              LoopTerm.cell? plain.level x == some cell
            return { index with columns := columns.map fun n => start + n }
          let indexes := (indexesOf db plain.table 0).map fun index =>
            (moved index).getD ⟨[], index.isNumber⟩
          let inner : LoopSource :=
            ⟨.inner, 0, plain.width, tableRows, true, true, indexesOf db plain.table 0⟩
          let own := plain.condition.map fun x =>
            { LoopTerm.ofFormula fuel plain.level [inner] [] none [] x with
              sources := [i], probes := [], derived := [], link := none }
          ⟨source tableRows true true (indexes.filter fun index =>
            index.isNumber || !index.columns.isEmpty), own, on⟩
      | none => ⟨source p.expected false true [⟨[], true⟩], [], on⟩
  | .working _ => ⟨source tableRows false false [⟨[], true⟩], [], on⟩
  | .walk _ _ | .nested _ => ⟨source tableRows false false [⟨[], true⟩], [], on⟩

/-- Sources of which those are joined like any other whose rows without a partner are refused by
some conditions, to which their own ones then belong as well. -/
def reduced (level : Nat) (conditions : List Formula) : List LoopPart → List LoopPart
  | [] => []
  | part :: rest =>
      let mine (index : Nat) : Bool :=
        part.source.start ≤ index && index < part.source.start + part.source.width
      if part.source.kind.keepsLeft && Formula.anyRefuses level mine conditions then
        { part with source := { part.source with kind := .inner } } ::
          reduced level (conditions ++ part.on) rest
      else part :: reduced level conditions rest

/-- What is known of the sources of a selection with some conditions. -/
def ofAll (db : Database) (fuel level : Nat) (joined : List Joined) (conditions : List Formula) :
    List LoopPart :=
  let starts := (joined.foldl (fun (starts, start) (.mk _ _ width _) =>
    (starts ++ [start], start + width)) (([] : List Nat), 0)).1
  let parts := (joined.zip starts).zipIdx.map fun ((j, start), i) => ofJoined db fuel i start j
  let behind := parts.filter fun part => !part.source.kind.isOuter
  reduced level (conditions ++ behind.flatMap LoopPart.on) parts

end LoopPart

namespace Loops

/-- The loops in the order in which the sources stand. -/
def asWritten (joined : List Joined) : Loops Formula :=
  ⟨(List.range joined.length).map fun n => ⟨n, false, [], []⟩, tableRows⟩

/-- The cells in whose order the rows of a source come where an order is built for it, of those
that are used at all. -/
def builtOrder (used : List Nat) (source : LoopSource) : List Nat :=
  let numbers := source.indexes.flatMap fun index => if index.isNumber then index.columns else []
  ((List.range source.width).map fun n => source.start + n).filter fun cell =>
    used.contains cell && !numbers.contains cell

/-- The conditions of some branches as far as they can be tested when some sources are ready, in the
order in which the rows of a source are looked up: those that are about another source by
themselves come last, from the last one on. -/
def branchesInOrder (sources : List LoopSource) (i : Nat) (ready : List Nat)
    (branches : List LoopBranch) : List (List Formula) :=
  let isTurned (b : LoopBranch) : Bool := match b.terms with
    | [t] =>
        (t.probes.head?.map fun probe => LoopTerm.sourceOf? sources probe.cell) != some (some i)
    | _ => false
  let tested (b : LoopBranch) : List Formula :=
    ((b.terms.zip b.formulas).filter fun (t, _) => t.sources.all ready.contains).map Prod.snd
  ((branches.filter fun b => !isTurned b) ++ (branches.filter isTurned).reverse).map tested

/-- Whether the order of some sources can be chosen. -/
def isOpen (joined : List Joined) : Bool :=
  !joined.isEmpty && joined.all fun
    | .mk kind rows _ _ =>
        !kind.keepsRight && match rows with
          | .walk _ _ | .nested _ => false
          | _ => true

/-- Whether a cell is always there: it belongs to a column of a table whose values are never
missing, and no row without a partner is kept on its side. -/
def isThere (db : Database) : Nat → List Joined → Nat → Bool
  | start, .mk kind rows width _ :: rest, index =>
      if index < start + width then
        match rows with
        | .table table =>
            !kind.isOuter && start ≤ index && !(((db.columns table)[index - start]?).any fun c =>
              (db.optional table).contains c.name)
        | _ => false
      else isThere db (start + width) rest index
  | _, [], _ => false

/-- A key by which rows of a level are needed in order. -/
def key (fuel level : Nat) (sources : List LoopSource) (x : Formula) (order : SortOrder) :
    LoopKey :=
  let needed := LoopTerm.sourcesOf sources (x.cells fuel level)
  ⟨LoopTerm.cell? level x.plain, needed, needed.isEmpty, order.descending,
    order.descending == order.nullsFirst⟩

/-- What is to be chosen for some sources and conditions of a level, where an order by some cells
may be needed. -/
def problem (fuel level : Nat) (parts : List LoopPart) (conditions : List Formula)
    (sorted : List Nat) : LoopProblem :=
  let sources := parts.map LoopPart.source
  let joining := parts.zipIdx.flatMap fun (part, i) =>
    part.on.map fun x => (x, if part.source.kind.keepsLeft then some i else none)
  let written := conditions.map (fun x => (x, none)) ++ joining
  let fixed := written.filterMap fun (x, owner) =>
    if owner.isNone then LoopTerm.fixed? level x else none
  let terms := written.zipIdx.map fun ((x, owner), n) =>
    LoopTerm.ofFormula fuel level sources fixed owner [n] x
  let splits := written.zipIdx.filterMap fun ((x, owner), n) =>
    LoopTerm.branchesOf? fuel level sources fixed owner n x
  ⟨sources, terms ++ parts.flatMap LoopPart.own, sorted, [], splits⟩

/-- The loops of what was chosen, where some cells are used. -/
def ofSolution (used : List Nat) (p : LoopProblem) (found : LoopProblem.Solution) :
    Loops Formula :=
  let loops := found.path.ways.zipIdx.map fun (a, n) =>
    let sorted := if a.isBuilt then (p.sources[a.source]?.map (builtOrder used)).getD [] else []
    let ready := (found.path.ways.take (n + 1)).map Access.source
    let branches := (a.split.bind fun m => p.splits[m]?).getD []
    (⟨a.source, found.reversed.contains a.source, sorted,
      branchesInOrder p.sources a.source ready branches⟩ : Loop Formula)
  ⟨loops, found.path.rows⟩

/-- The loops of a selection on a level of which some cells are used, and whether its rows come in
an order that they are needed in by some keys. -/
def choose (db : Database) (fuel level : Nat) (used : List Nat) (joined : List Joined)
    (conditions : List Formula) (order : OrderUse) (keys : List (Formula × SortOrder))
    (width : Nat) (distinct : Bool) (limit : Option Estimate) : Loops Formula × Bool :=
  if !isOpen joined then (asWritten joined, false)
  else
    let conditions := conditions.map (Formula.settled level (isThere db 0 joined))
    let parts := LoopPart.ofAll db fuel level joined conditions
    let keys := keys.map fun (x, order) => key fuel level (parts.map LoopPart.source) x order
    let p := problem fuel level parts conditions (keys.filterMap LoopKey.cell?)
    let need : Option OrderNeed :=
      if keys.isEmpty then none else some ⟨order, keys, width, distinct, limit⟩
    match p.solution (if level = 0 then 0 else 48) need with
    | some found => (ofSolution used p found, found.isOrdered)
    | none => (asWritten joined, false)

end Loops

end RowPolicy.Sql
