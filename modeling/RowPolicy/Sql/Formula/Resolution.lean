import RowPolicy.Sql.Formula.LoopChoice
import RowPolicy.Sql.Formula.Resolver

/-!
# Looking up the names of a query

A query is looked through in the order in which its parts depend on each other: first
its sources, then what it shows, then its conditions, and last its groups and its order,
which cannot refer to queries around it. What is shown decides whether rows are grouped.
Every function that looks up names is given more fuel than there are steps to take.
-/

namespace RowPolicy.Sql

namespace Resolver

/-- The functions of windows by name, in lower case, with their numbers of arguments. -/
def windowFunction? (name : String) (count : Nat) : Option WindowFunction :=
  match name, count with
  | "row_number", 0 => some .rowNumber
  | "rank", 0 => some .rank
  | "dense_rank", 0 => some .denseRank
  | "percent_rank", 0 => some .percentRank
  | "cume_dist", 0 => some .cumulative
  | "ntile", 1 => some .bucket
  | "lag", 1 | "lag", 2 | "lag", 3 => some (.shifted false)
  | "lead", 1 | "lead", 2 | "lead", 3 => some (.shifted true)
  | "first_value", 1 => some .first
  | "last_value", 1 => some .last
  | "nth_value", 2 => some .nth
  | _, _ => none

/-- The names of the functions that are computed from windows only. -/
def windowNames : List String :=
  ["row_number", "rank", "dense_rank", "percent_rank", "cume_dist", "ntile", "lag", "lead",
    "first_value", "last_value", "nth_value"]

/-- The frame of a window for which none is given. -/
def defaultFrame {τ : Type} : Frame τ := ⟨.range, .start, .current, .nothing⟩

/-- Whether a frame can begin and end as it does. -/
def isFrame {τ : Type} (f : Frame τ) : Bool :=
  match f.first, f.last with
  | .current, .preceding _ | .following _, .preceding _ | .following _, .current => false
  | _, _ => true

/-- Whether a frame is measured by the distance of keys. -/
def isMeasured {τ : Type} (f : Frame τ) : Bool :=
  let isDistance : FrameBound τ → Bool
    | .preceding _ | .following _ => true
    | _ => false
  f.unit == .range && (isDistance f.first || isDistance f.last)

/-- A window with all that it takes over from other ones, at most `fuel` of them. -/
def complete (fuel : Nat) (defined : List (String × Window Term)) (w : Window Term) :
    Resolver (Window Term) := do
  match fuel, w.base with
  | _, none => return w
  | 0, some name => stop (.unknownWindow name)
  | fuel + 1, some name =>
      match defined.findIdx? fun entry => sameName entry.1 name with
      | none => stop (.unknownWindow name)
      | some n =>
          match defined[n]? with
          | none => stop (.unknownWindow name)
          | some (_, base) =>
              let base ← complete fuel (defined.take n) base
              ensure w.partition.isEmpty .window
              ensure (base.keys.isEmpty || w.keys.isEmpty) .window
              ensure base.frame.isNone .window
              let keys := if base.keys.isEmpty then w.keys else base.keys
              return ⟨none, base.partition, keys, w.frame⟩

/-- Rows from which a subquery in place of a value is taken: one at most, unless the limit is
zero. -/
def onlyFirst : Plan → Plan
  | .mk level body columns orders limit offset =>
      .mk level body columns orders (some (limit.elim (.literal (.int 1)) fun x =>
        .binary (.relation .ne) .exact x (.unary (.cast .numeric) (.literal (.int 0))))) offset
  | .recursive level id start steps distinct columns orders limit offset =>
      .recursive level id start steps distinct columns orders limit offset

/-- The body of a query whose last selection keeps repetitions. -/
def keepingRepeats : Body → Body
  | .rows _ shown _ sources loops condition grouping windows =>
      .rows none shown [] sources loops condition grouping windows
  | .combined .unionAll ks l r => .combined .unionAll ks l (keepingRepeats r)
  | b => b

/-- A query of which it only counts whether it finds anything. Its order does not count, nor do
repetitions, which stay. -/
def onlyWhether : Plan → Plan
  | .mk level body _ _ limit offset =>
      onlyFirst (.mk level (keepingRepeats body) [] [] limit offset)
  | p => onlyFirst p

/-- The first column of a list of columns that is named or written like a sort key, counted from
zero. -/
def placeOf? (shown : List Shown) (key : Term) : Option Nat :=
  key.bare.name?.bind fun name =>
    shown.findIdx? fun s => s.label.any (sameName name)

/-- A formula with the collation that a term asks for at its outside. -/
def collatedLike (key : Term) (x : Formula) : Formula :=
  match key.outerCollation? with
  | some k => .unary (.collate k) x
  | none => x

/-- A source with its columns and its rows, and the condition on which it is joined. -/
structure Bound where
  known : List Known
  kind : JoinKind
  rows : RowSource
  /-- The index of its first cell. -/
  start : Nat
  width : Nat
  on : Option Term
  /-- The columns shared with sources in front have to be equal. -/
  equalities : List Formula

/-- The equality of two formulas. -/
def equality (x y : Formula) : Formula :=
  .binary (.relation .eq) (Formula.comparison x y) x y

/-- The columns of a source by name. -/
def columnOf? (source : Known) (name : String) : Option Formula :=
  (source.entries.find? fun e => sameName e.column name).map Entry.formula

/-- The equality of a column that is shared by a source and those in front of it. -/
def sharedEquality (front : List Known) (keepsRight : Bool) (source : Known) (name : String) :
    Resolver Formula := do
  let left := front.filterMap fun s => (columnOf? s name).map fun x => (s, x)
  match left, columnOf? source name with
  | (_, first) :: rest, some right =>
      if keepsRight && !rest.isEmpty then
        ensure (rest.all fun entry => isListed entry.1.shared name) .join
        return equality (.merged (first :: rest.map Prod.snd)) right
      else return equality first right
  | _, _ => stop .join

/-- The columns that a natural join shares. -/
def commonColumns (front : List Known) (source : Known) : List String :=
  (source.entries.filter fun e => e.isShown && front.any fun s =>
    (columnOf? s e.column).isSome).map Entry.column

/-- What has to hold of a recursive query: the part that starts it, and the parts that refer to
it. -/
def splitRecursive (name : String) (first : Selection) (rest : List (SetOp × Selection)) :
    List (SetOp × Selection) × List (SetOp × Selection) :=
  let refers : Selection → Bool
    | .rows _ _ sources _ _ _ _ => sources.any fun
        | .mk _ (.table none s none) _ _ _ => sameName s name
        | _ => false
    | .values _ => false
  match rest.getLast? with
  | some (op, _) =>
      if op == .unionAll || op == .union then
        let steps := (rest.reverse.takeWhile fun part => part.1 == op && refers part.2).reverse
        ((.unionAll, first) :: rest.take (rest.length - steps.length), steps)
      else ((.unionAll, first) :: rest, [])
  | none => ((.unionAll, first) :: rest, [])

/-- The selections of a query that is sorted by a collation. If rows are put together other than
one behind the other, that is a selection of its own, which the groups of the last part are
those of. -/
def collatedParts (first : Selection) (rest : List (SetOp × Selection)) :
    Selection × List (SetOp × Selection) :=
  match rest.getLast? with
  | none => (first, rest)
  | some (op, last) =>
      if rest.all fun part => part.1 == .unionAll then (first, rest)
      else
        let whole (last : Selection) : SourceBody :=
          .query (.mk [] first (rest.dropLast ++ [(op, last)]) [] none none)
        match last with
        | .rows distinct items sources condition groups having windows =>
            let last := Selection.rows distinct items sources condition [] none windows
            (.rows distinct [.all] [.mk .inner (whole last) none none []] none groups having [], [])
        | .values _ =>
            (.rows false [.all] [.mk .inner (whole last) none none []] none [] none [], [])

mutual

/-- The formula of a term. -/
def term (fuel : Nat) (s : Surroundings) (x : Term) : Resolver Formula := do
  match fuel with
  | 0 => stop .tooDeep
  | fuel + 1 =>
      match x with
      | .literal v => return .literal v
      | .parameter place => return .parameter place
      | .name schema table column mayBeText =>
          return (← name fuel s schema table column mayBeText).1
      | .unary op x => return .unary op (← term fuel s x)
      | .binary (.relation r) x y => compared fuel s (.relation r) x y
      | .binary .same x y => compared fuel s .same x y
      | .binary op x y => return .binary op .exact (← term fuel s x) (← term fuel s y)
      | .choose base branches otherwise =>
          let conditions ← match base with
            | some b =>
                branches.mapM fun branch => compared fuel s (.relation .eq) b branch.1
            | none => branches.mapM fun branch => term fuel s branch.1
          let values ← branches.mapM fun branch => term fuel s branch.2
          let otherwise ← match otherwise with
            | some x => term fuel s x
            | none => pure (.literal .null)
          return .choose conditions values otherwise
      | .call c => called fuel s c
      | .row _ => stop .rowMisused
      | .member x items =>
          let x ← term fuel s x
          return .member (x.collation?.getD .exact) x (← items.mapM (term fuel s))
      | .among x q =>
          let xs ← values fuel s x
          let (p, columns, last) ← query fuel s q
          ensure (xs.length == columns.length) .columnCount
          return .among ((xs.zip last).map fun (x, y) => Formula.comparison x y) xs
            (last.map Formula.affinity) p
      | .exists q => return .exists (onlyWhether (← query fuel s q).1)
      | .query q =>
          let (p, _, last) ← query fuel s q
          match last with
          | [y] => return .markedIf y.isJson (.first (onlyFirst p) 0 y.affinity)
          | _ => stop .columnCount

/-- The formulas of the values that a term stands for beside another one. -/
def values (fuel : Nat) (s : Surroundings) (x : Term) : Resolver (List Formula) := do
  match fuel with
  | 0 => stop .tooDeep
  | fuel + 1 =>
      match x with
      | .row items => items.mapM (term fuel s)
      | .query q =>
          let (p, _, last) ← query fuel s q
          return last.zipIdx.map fun (y, n) => .first (onlyFirst p) n y.affinity
      | x => return [← term fuel s x]

/-- A comparison of two terms, which may be rows of values. -/
def compared (fuel : Nat) (s : Surroundings) (op : BinaryOp) (x y : Term) :
    Resolver Formula := do
  match fuel with
  | 0 => stop .tooDeep
  | fuel + 1 =>
      let xs ← values fuel s x
      let ys ← values fuel s y
      match xs, ys with
      | [x], [y] =>
          match op, unmarked y with
          | .same, .truth b => return .unary (if b then .isTrue else .isFalse) x
          | .same, .literal .null => return .unary .isNull x
          | _, _ => return .binary op (Formula.comparison x y) x y
      | xs, ys =>
          ensure (xs.length == ys.length) .rowMisused
          return .rows op ((xs.zip ys).map fun (x, y) => Formula.comparison x y) xs ys

where
  /-- A formula without collations. -/
  unmarked : Formula → Formula
    | .unary (.collate _) x => unmarked x
    | x => x

/-- The formula and the proper name of a column. -/
def name (fuel : Nat) (s : Surroundings) (schema table : Option String) (column : String)
    (mayBeText : Bool) : Resolver (Formula × Option String) := do
  match fuel with
  | 0 => stop .tooDeep
  | fuel + 1 =>
      match s.scopes with
      | [] =>
          if table.isSome then stop (.unknownColumn column)
          if mayBeText then return (.literal (.str column), none)
          if sameName column "true" then return (.truth true, none)
          if sameName column "false" then return (.truth false, none)
          stop (.unknownColumn column)
      | scope :: outer =>
          match ← scope.column? schema table column with
          | some (x, proper) =>
              note x
              return (x, some proper)
          | none =>
              match if table.isNone then scope.label? column else none with
              | some (.formula x) =>
                  note x
                  return (x, none)
              | some (.term x) =>
                  let inner : Scope := { scope with
                    labels := []
                    windows := scope.windows && scope.level + 1 == s.level }
                  return (← term fuel { s with
                    scopes := inner :: outer
                    level := scope.level + 1 } x, none)
              | none => name fuel { s with scopes := outer } schema table column mayBeText

/-- The formula of a call. -/
def called (fuel : Nat) (s : Surroundings) (c : Call Term) : Resolver Formula := do
  match fuel with
  | 0 => stop .tooDeep
  | fuel + 1 =>
      let f := c.name.toLower
      let count := c.args.length
      match c.overWindow with
      | some w => windowed fuel s c w
      | none =>
          match Aggregate.ofName? f count with
          | some a => aggregated fuel s c a
          | none =>
              if Aggregate.isName f then stop (.argumentCount f)
              if windowNames.contains f then stop (.misplaced f)
              ensure (c.filter.isNone && c.keys.isEmpty) (.misplaced f)
              let args ← c.args.mapM (term fuel s)
              match f, args with
              | "iif", [condition, yes, no] => return .choose [condition] [yes] no
              | _, args =>
                  match Function.ofName? f count with
                  | some (g, isAccepted) =>
                      ensure isAccepted (.argumentCount f)
                      ensure (g.allows c.args) (.argument f)
                      return .call g (Formula.collationAmong args) args
                  | none => stop (.unknownFunction f)

/-- The formula of an aggregate: it belongs to the innermost level of which there is a cell in
it. -/
def aggregated (fuel : Nat) (s : Surroundings) (c : Call Term) (a : Aggregate) :
    Resolver Formula := do
  match fuel with
  | 0 => stop .tooDeep
  | fuel + 1 =>
      ensure (s.scopes.head?.any Scope.aggregates) (.misplaced c.name)
      ensure (!c.distinct || c.args.length == 1) (.argumentCount c.name)
      let inner := s.adjusted fun scope => { scope with aggregates := false, windows := false }
      let ((args, keys, filter), used) ← noting do
        let args ← c.args.mapM (term fuel inner)
        let keys ← c.keys.mapM fun key => do
          return ({ key with term := ← term fuel inner key.term } : SortKey Formula)
        let filter ← c.filter.mapM (term fuel inner)
        return (args, keys, filter)
      let level := s.level - 1
      let levels := (used.map Prod.fst).filter (· ≤ level)
      let owner := if levels.isEmpty then level else levels.foldl Nat.max 0
      addAggregate owner {
        aggregate := a
        distinct := c.distinct
        collation := Formula.collationAmong args
        args := args
        keys := keys.map SortKey.term
        orders := keys.map ordered
        filter := filter }

/-- The formula of a function of a window. -/
def windowed (fuel : Nat) (s : Surroundings) (c : Call Term) (named : Over Term) :
    Resolver Formula := do
  match fuel with
  | 0 => stop .tooDeep
  | fuel + 1 =>
      let f := c.name.toLower
      let count := c.args.length
      let function ← match windowFunction? f count, Aggregate.ofName? f count with
        | some w, _ => pure w
        | none, some a => pure (.aggregate a)
        | none, none => stop (.misplaced f)
      let isAggregate := (windowFunction? f count).isNone
      ensure (s.scopes.head?.any Scope.windows) (.misplaced f)
      ensure (!c.distinct && c.keys.isEmpty && (isAggregate || c.filter.isNone)) .window
      let defined := (s.scopes.head?.map Scope.defined).getD []
      let w ← match named with
        | .window w => complete (defined.length + 1) defined w
        | .named n =>
            match defined.findIdx? fun entry => sameName entry.1 n with
            | some place =>
                match defined[place]? with
                | some (_, w) => complete (defined.length + 1) (defined.take place) w
                | none => stop (.unknownWindow n)
            | none => stop (.unknownWindow n)
      let inner := s.adjusted fun scope => { scope with windows := false }
      let args ← c.args.mapM (term fuel inner)
      let filter ← c.filter.mapM (term fuel inner)
      let partition ← w.partition.mapM (term fuel inner)
      let keys ← w.keys.mapM fun key => do
        return ({ key with term := ← term fuel inner key.term } : SortKey Formula)
      let frame ← frame fuel inner (w.frame.getD defaultFrame)
      ensure (!isMeasured frame || keys.length == 1) .window
      addWindow (s.level - 1) {
        function := function
        collation := Formula.collationAmong args
        args := args
        filter := filter
        partition := partition
        partitionOrders := ascending partition
        keys := keys.map SortKey.term
        orders := keys.map ordered
        frame := frame }

/-- The formulas of a frame. -/
def frame (fuel : Nat) (s : Surroundings) (f : Frame Term) : Resolver (Frame Formula) := do
  match fuel with
  | 0 => stop .tooDeep
  | fuel + 1 =>
      ensure (isFrame f) .window
      let bound : FrameBound Term → Resolver (FrameBound Formula)
        | .start => return .start
        | .preceding x => return .preceding (← term fuel s x)
        | .current => return .current
        | .following x => return .following (← term fuel s x)
        | .stop => return .stop
      return ⟨f.unit, ← bound f.first, ← bound f.last, f.exclusion⟩

/-- The plan of a query, with its columns and the values that its last part shows. -/
def query (fuel : Nat) (s : Surroundings) (q : Query) :
    Resolver (Plan × List ShownColumn × List Formula) := do
  match fuel with
  | 0 => stop .tooDeep
  | fuel + 1 =>
      match q with
      | .mk common first rest keys limit offset =>
          let s ← if common.isEmpty then pure s else do
            let id ← freshId
            pure { s with common := (id, common) :: s.common }
          let bounds : Surroundings := { s with scopes := [] }
          let limit ← limit.mapM (term fuel bounds)
          let offset ← offset.mapM (term fuel bounds)
          let (first, rest) := if keys.any fun key => key.term.outerCollation?.isSome then
            collatedParts first rest else (first, rest)
          match rest with
          | [] =>
              let (body, shown, _, orders) ← selection fuel s none first keys limit
              return (.mk s.level body [] orders limit offset, Shown.columns shown,
                (shown.getLastD []).map Shown.formula)
          | rest =>
              let (body, shown, columns, orders) ← combined fuel s ((.unionAll, first) :: rest) keys
              return (.mk s.level body columns orders limit offset, Shown.columns shown,
                (shown.getLastD []).map Shown.formula)

/-- Several selections put together, with what each of them shows, and the columns by which
their rows are sorted. -/
def combined (fuel : Nat) (s : Surroundings) (parts : List (SetOp × Selection))
    (keys : List (SortKey Term)) :
    Resolver (Body × List (List Shown) × List Nat × List SortOrder) := do
  match fuel with
  | 0 => stop .tooDeep
  | fuel + 1 =>
      let resolved ← parts.mapM fun (op, part) => do
        let (body, shown, scope, _) ← selection fuel s none part [] none
        return (op, body, shown, scope)
      let shown := resolved.flatMap fun (_, _, shown, _) => shown
      let width := (shown.headD []).length
      ensure (shown.all fun row => row.length == width) .columnCount
      let collations (shown : List (List Shown)) : List Collation :=
        (List.range width).map fun n =>
          (shown.findSome? fun row => row[n]?.bind fun x => x.formula.collation?).getD .exact
      let body := match resolved with
        | [] => .values []
        | (_, first, firstShown, _) :: rest =>
            (rest.foldl (fun (body, before) (op, next, nextShown, _) =>
              let before := before ++ nextShown
              (Body.combined op (collations before) body next, before)) (first, firstShown)).1
      let scopes := resolved.map fun (_, _, shown, scope) => (shown.headD [], scope)
      let places ← keys.mapM fun key => place fuel s scopes key.term
      let orders := (keys.zip places).map fun (key, n) =>
        (⟨key.descending, key.nullsFirst,
          (key.term.outerCollation?.or ((collations shown)[n]?)).getD .exact⟩ : SortOrder)
      return (body, shown, places, orders)

/-- The column that a sort key of several selections put together stands for. -/
def place (fuel : Nat) (s : Surroundings) (parts : List (List Shown × Scope)) (key : Term) :
    Resolver Nat := do
  match fuel with
  | 0 => stop .tooDeep
  | fuel + 1 =>
      let width := (parts.head?.map fun part => part.1.length).getD 0
      match key.bare.position? with
      | some n =>
          ensure (decide (1 ≤ n ∧ n ≤ width)) .unknownKey
          return n.toNat - 1
      | none =>
          match parts with
          | [] => stop .unknownKey
          | (shown, scope) :: rest =>
              match placeOf? shown key with
              | some n => return n
              | none =>
                  let before ← get
                  let found : Option Formula :=
                    ((term fuel { s with scopes := [scope], level := scope.level + 1 }
                      key.bare).run before).toOption.map Prod.fst
                  match found.bind fun x => shown.findIdx? fun y =>
                      Formula.same (uncollated y.formula) (uncollated x) with
                  | some n => return n
                  | none => place fuel s rest key
where
  /-- A formula without the collations that it asks for. -/
  uncollated : Formula → Formula
    | .unary (.collate _) x => uncollated x
    | x => x

/-- A selection of rows, with what it shows, the scope of its names and the order of its rows, of
which a limit may be taken. It may refer to the row at hand of a recursive query. -/
def selection (fuel : Nat) (s : Surroundings) (working : Option Working) (part : Selection)
    (keys : List (SortKey Term)) (limit : Option Formula) :
    Resolver (Body × List (List Shown) × Scope × List SortOrder) := do
  match fuel with
  | 0 => stop .tooDeep
  | fuel + 1 =>
      let level := s.level
      match part with
      | .values rows =>
          let scope : Scope := ⟨level, [], [], false, false, []⟩
          let width := (rows.headD []).length
          ensure (rows.all fun row => row.length == width) .columnCount
          let rows ← rows.mapM fun row => row.mapM (term fuel (s.inside scope))
          let shown := rows.map fun row => row.map fun x => (⟨x, none, ""⟩ : Shown)
          return (.values rows, shown, scope, [])
      | .rows distinct items sources condition groups having windows =>
          let keepsRight := sources.any fun | .mk kind _ _ _ _ => kind.keepsRight
          let bound ← bind fuel s working 0 [] keepsRight sources
          let known := bound.flatMap Bound.known
          let scope : Scope := ⟨level, known, [], true, true, windows⟩
          let shown := (← items.mapM fun item => shownBy fuel (s.inside scope) scope item).flatten
          let isGrouped := !groups.isEmpty || (← aggregateCount level) != 0
          let labels := labelsOf items shown
          let scope := { scope with labels := labels, aggregates := isGrouped, windows := false }
          ensure (having.isNone || isGrouped) .notGrouped
          let condition ← withoutAggregates level
            (((condition.map Term.conjuncts).getD []).mapM (term fuel (s.inside scope)))
          let (joined, moved) ← withoutAggregates level
            (joinedOn fuel (s.inside scope) keepsRight bound)
          let whole := { scope with aggregates := true, windows := true }
          let sorted ← keys.mapM fun key => do
            let x ← sortTerm fuel (s.inside whole).alone shown true key.term
            return ({ key with term := x } : SortKey Formula)
          let groups ← withoutAggregates level (groups.mapM
            (sortTerm fuel (s.inside { whole with windows := false }).alone shown false))
          ensure (!Formula.anyAggregates level groups) (.misplaced "")
          let having ← having.mapM (term fuel (s.inside scope))
          let (aggregates, windows) ← collected level
          ensure (isGrouped || aggregates.isEmpty) (.misplaced "")
          let conditions := condition ++ moved
          let orders := sorted.map ordered
          let (use, needed) : OrderUse × List (Formula × SortOrder) :=
            if isGrouped then
              (.grouping, if windows.isEmpty then groups.zip (ascending groups) else [])
            else if !windows.isEmpty then (.sorting, [])
            else if !keys.isEmpty then (.sorting, (sorted.map SortKey.term).zip orders)
            else if distinct then
              (.distinctness, (shown.map Shown.formula).zip (ascending (shown.map Shown.formula)))
            else (.sorting, [])
          let body (loops : Loops Formula) (inOrder : Bool) : Body :=
            let grouping :=
              if isGrouped then
                let orders := if windows.isEmpty then alongside (ascending groups) sorted
                  else ascending groups
                some (.mk groups orders inOrder aggregates having)
              else none
            let distinct := if distinct then
              some (shown.map fun x => x.formula.collation?.getD .exact) else none
            .rows distinct (shown.map Shown.formula) (sorted.map SortKey.term) joined loops
              conditions grouping windows
          let used := (body (.asWritten joined) false).cells fuel level
          let (loops, inOrder) := Loops.choose s.db fuel level used joined conditions use needed
            shown.length (distinct && !isGrouped) (limit.bind taken?)
          return (body loops inOrder, [shown], scope, orders)
where
  /-- The number of rows that a limit leaves, if it is written as a number. -/
  taken? : Formula → Option Estimate
    | .literal (.int n) => if 0 < n then some (.ofNat n.toNat) else none
    | _ => none
  /-- The order of groups, which goes down where that of as many sort keys does. -/
  alongside (orders : List SortOrder) (keys : List (SortKey Formula)) : List SortOrder :=
    if orders.length ≠ keys.length then orders
    else (orders.zip keys).map fun (order, key) =>
      { order with descending := key.descending, nullsFirst := !key.descending }
  /-- The names under which values are shown. -/
  labelsOf (items : List Item) (shown : List Shown) : List (String × Label) :=
    let written := items.filterMap fun
      | .term x (some label) _ => some (label, Label.term x)
      | _ => none
    written ++ shown.filterMap fun x => x.label.map fun label => (label, .formula x.formula)

/-- What one of the items of a selection shows. -/
def shownBy (fuel : Nat) (s : Surroundings) (scope : Scope) (item : Item) :
    Resolver (List Shown) := do
  match fuel with
  | 0 => stop .tooDeep
  | fuel + 1 =>
      match item with
      | .all =>
          ensure (!scope.sources.isEmpty) (.unknownTable "*")
          scope.allShown
      | .allOf table =>
          let shown := scope.shownOf table
          ensure (!shown.isEmpty) (.unknownTable table)
          return shown
      | .term x label text =>
          match x.bare with
          | .name schema table column mayBeText =>
              let (_, proper) ← name fuel s schema table column mayBeText
              return [⟨← term fuel s x, label, proper.getD text⟩]
          | _ => return [⟨← term fuel s x, label, text⟩]

/-- The formula of a sort key or of a group: one of the values shown, by name where that is
allowed or by number, or else a term of its own. -/
def sortTerm (fuel : Nat) (s : Surroundings) (shown : List Shown) (byName : Bool) (key : Term) :
    Resolver Formula := do
  match fuel with
  | 0 => stop .tooDeep
  | fuel + 1 =>
      match if byName then placeOf? shown key else none with
      | some n => return collatedLike key ((shown[n]?.map Shown.formula).getD default)
      | none =>
          match key.bare.position? with
          | some n =>
              ensure (decide (1 ≤ n)) .unknownKey
              match shown[n.toNat - 1]? with
              | some x => return collatedLike key x.formula
              | none => stop .unknownKey
          | none => term fuel s key

/-- The sources of a selection with their columns, behind those that are known already. -/
def bind (fuel : Nat) (s : Surroundings) (working : Option Working) (start : Nat)
    (front : List Known) (keepsRight : Bool) (sources : List Source) : Resolver (List Bound) := do
  match fuel with
  | 0 => stop .tooDeep
  | fuel + 1 =>
      match sources with
      | [] => return []
      | .mk kind body label on shared :: rest =>
          match front, kind, body, label, on, shared with
          | [], _, .nested inner, none, none, [] =>
              bind fuel s working start front (keepsRight || inner.any fun
                | .mk kind _ _ _ _ => kind.keepsRight) (inner ++ rest)
          | _, _, _, _, _, _ =>
              ensure (!front.isEmpty || (on.isNone && shared.isEmpty)) .join
              ensure (!kind.natural || (on.isNone && shared.isEmpty)) .join
              let (known, rows, width) ← source fuel s working start front kind shared body label
              let shared := if kind.natural then commonColumns front known else shared
              let known := { known with shared := shared }
              let equalities ← shared.mapM (sharedEquality front keepsRight known)
              let bound : Bound := ⟨[known], kind, rows, start, width, on, equalities⟩
              return bound :: (← bind fuel s working (start + width) (front ++ [known]) keepsRight
                rest)

/-- A source with its columns, its rows and the number of their cells. -/
def source (fuel : Nat) (s : Surroundings) (working : Option Working) (start : Nat)
    (front : List Known) (kind : JoinKind) (shared : List String) (body : SourceBody)
    (label : Option String) : Resolver (Known × RowSource × Nat) := do
  match fuel with
  | 0 => stop .tooDeep
  | fuel + 1 =>
      let level := s.level
      let ofColumns (label : String) (columns : List ShownColumn) : Known :=
        .ofColumns label level start kind shared columns
      match body with
      | .table schema table args =>
          let walk? := JsonFunction.walkOf? table.toLower
          ensure (args.isNone || walk?.isSome) (.unknownTable table)
          match if schema.isNone then working.filter fun w => sameName w.name table else none with
          | some w =>
              return (ofColumns (label.getD table) w.columns, .working w.id, w.columns.length)
          | none =>
              match if schema.isNone then Surroundings.commonTable? table s.common else none with
              | some (.mk name columns q, common) =>
                  let id := (common.head?.map Prod.fst).getD 0
                  ensure (!s.busy.contains (id, name)) (.circular name)
                  let (p, columns) ← commonPlan fuel
                    { s with common := common, busy := (id, name) :: s.busy } name columns q
                  ensure args.isNone (.unknownTable table)
                  return (ofColumns (label.getD table) columns, .plan p, columns.length)
              | none =>
                  ensure (schema.all (sameName "main")) (.unknownTable table)
                  match walk? with
                  | some all =>
                      let args := args.getD []
                      ensure (decide (args.length ≤ 2)) (.argumentCount table)
                      let scope : Scope := ⟨level, front, [], false, false, []⟩
                      let args ← args.mapM (term fuel (s.inside scope))
                      return (.ofWalk (label.getD table) level start kind shared,
                        .walk all args, walkColumns.length + 1)
                  | none =>
                      let stored := table.toLower
                      let count := (s.db.columns stored).length
                      ensure (count != 0) (.unknownTable table)
                      return (.ofTable s.db stored (label.getD table) level start kind shared,
                        .table stored, count + 1)
      | .query q =>
          let (p, columns, _) ← query fuel s q
          return (ofColumns (label.getD "") columns, .plan p, columns.length)
      | .nested inner =>
          match inner with
          | [.mk _ (.nested nested) innerLabel none []] =>
              source fuel s working start front kind shared (.nested nested)
                (label.or innerLabel)
          | [.mk _ (.table schema table args) _ none []] =>
              source fuel s working start front kind shared (.table schema table args) label
          | [.mk _ (.query q) _ none []] =>
              source fuel s working start front kind shared (.query q) label
          | inner =>
              let keepsRight := inner.any fun | .mk kind _ _ _ _ => kind.keepsRight
              let bound ← bind fuel s none start [] keepsRight inner
              let scope : Scope := ⟨level, bound.flatMap Bound.known, [], false, false, []⟩
              let (joined, moved) ← joinedOn fuel (s.inside scope) keepsRight bound
              let known ← Known.ofNested label (bound.flatMap Bound.known) kind shared
              let width := bound.foldl (fun n b => n + b.width) 0
              let joined := match joined.reverse with
                | .mk kind rows width on :: rest =>
                    (Joined.mk kind rows width (on ++ moved) :: rest).reverse
                | [] => []
              return (known, .nested joined, width)

/-- The plan of a query with a name, with its columns under the names given to them. -/
def commonPlan (fuel : Nat) (s : Surroundings) (name : String) (columns : List String)
    (q : Query) : Resolver (Plan × List ShownColumn) := do
  match fuel with
  | 0 => stop .tooDeep
  | fuel + 1 =>
      let renamed (found : List ShownColumn) : Resolver (List ShownColumn) := do
        if columns.isEmpty then return found
        ensure (columns.length == found.length) .columnCount
        return ((Shown.distinctNames [] columns).zip found).map fun (name, c) =>
          { c with name := name }
      match q with
      | .mk common first rest keys limit offset =>
          match splitRecursive name first rest with
          | (_, []) =>
              let (p, found, _) ← query fuel s q
              return (p, ← renamed found)
          | (start, (op, step) :: steps) =>
              let s ← if common.isEmpty then pure s else do
                let id ← freshId
                pure { s with common := (id, common) :: s.common }
              let bounds : Surroundings := { s with scopes := [] }
              let limit ← limit.mapM (term fuel bounds)
              let offset ← offset.mapM (term fuel bounds)
              let (body, shown, _, _) ← combined fuel s start []
              let id ← freshId
              let initial ← renamed (Shown.columns shown)
              let steps := step :: steps.map Prod.snd
              let resolve (columns : List ShownColumn) :
                  Resolver (List (Body × List Shown × Scope)) :=
                steps.mapM fun step => do
                  let (body, shown, scope, _) ←
                    selection fuel s (some ⟨name, id, columns⟩) step [] none
                  ensure (isPlain body) (.misplaced name)
                  let shown := shown.headD []
                  ensure (shown.length == initial.length) .columnCount
                  return (body, shown, scope)
              let first ← resolve initial
              let known ← renamed (Shown.columns (shown ++ first.map fun part => part.2.1))
              let final ← resolve known
              let parts := shown ++ final.map fun part => part.2.1
              let collations := (List.range initial.length).map fun n =>
                (parts.findSome? fun row => row[n]?.bind fun x => x.formula.collation?).getD .exact
              let scope : Scope := ⟨s.level, [], [], false, false, []⟩
              let places ← keys.mapM fun key => place fuel s
                (shown.map (fun row => (row, scope)) ++ final.map fun part => part.2) key.term
              let orders := (keys.zip places).map fun (key, n) =>
                (⟨key.descending, key.nullsFirst,
                  (key.term.outerCollation?.or (collations[n]?)).getD .exact⟩ : SortOrder)
              return (.recursive s.level id (.mk s.level body [] [] none none)
                (final.map fun part => .mk s.level part.1 [] [] none none)
                (if op == .union then some collations else none) places orders limit offset, known)
where
  /-- Whether a part of a recursive query neither groups rows nor looks through windows. -/
  isPlain : Body → Bool
    | .rows _ _ _ _ _ _ none [] => true
    | _ => false

/-- The conditions of joins, each with its source. A condition on tables that are joined later
is moved behind all joins, if that is possible. -/
def joinedOn (fuel : Nat) (s : Surroundings) (keepsRight : Bool) (sources : List Bound) :
    Resolver (List Joined × List Formula) := do
  match fuel with
  | 0 => stop .tooDeep
  | fuel + 1 =>
      let level := s.level - 1
      let parts ← sources.mapM fun b => do
        let conditions := (b.on.map Term.conjuncts).getD []
        let resolved ← conditions.mapM fun x => noting (term fuel s x)
        let isLate (used : List (Nat × Nat)) : Bool :=
          used.any fun cell => cell.1 == level && b.start + b.width ≤ cell.2
        let late := resolved.filter fun entry => isLate entry.2
        ensure (late.isEmpty || !(b.kind.isOuter || keepsRight)) .join
        let own := resolved.filter fun entry => !isLate entry.2
        return (Joined.mk b.kind b.rows b.width (b.equalities ++ own.map Prod.fst),
          late.map Prod.fst)
      return (parts.map Prod.fst, parts.flatMap Prod.snd)

end

end Resolver

end RowPolicy.Sql
