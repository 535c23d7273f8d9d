import RowPolicy.Sql.Formula.Scope

/-!
# Collecting what names stand for

While the names of a query are looked up, the aggregates and the functions of windows are
collected for the levels to which they belong, and the cells that are referred to are
noted. What a query shows becomes a row of columns for the queries around it.
-/

namespace RowPolicy.Sql

/-- What has been collected so far, with the levels concerned. -/
structure Progress where
  aggregates : List (Nat × AggregateCall Formula)
  windows : List (Nat × WindowCall Formula)
  /-- The cells that were referred to, by level and index. -/
  used : List (Nat × Nat)
  nextId : Nat

/-- Looking up names collects what belongs to the levels around them, or fails. -/
abbrev Resolver := StateT Progress (Except TermError)

/-- A column that a query shows. -/
structure ShownColumn where
  name : String
  affinity : Affinity
  collation : Collation

/-- A value that a selection shows. -/
structure Shown where
  formula : Formula
  /-- The name given to it. -/
  label : Option String
  /-- The name it has for others. -/
  name : String

/-- The row at hand of a recursive query, as its own parts refer to it. -/
structure Working where
  name : String
  id : Nat
  columns : List ShownColumn

/-- What is known where a name is looked up. -/
structure Surroundings where
  db : Database
  /-- The level of the next query. -/
  level : Nat
  /-- The levels that can be seen, innermost first. -/
  scopes : List Scope
  /-- The tables that queries define for themselves, innermost first, by number. -/
  common : List (Nat × List CommonTable)
  /-- The tables that are just being looked into. -/
  busy : List (Nat × String)

namespace Surroundings

/-- The surroundings of a query inside a scope. -/
def inside (s : Surroundings) (scope : Scope) : Surroundings :=
  { s with level := scope.level + 1, scopes := scope :: s.scopes }

/-- The same surroundings with another innermost scope. -/
def adjusted (s : Surroundings) (change : Scope → Scope) : Surroundings :=
  match s.scopes with
  | scope :: rest => { s with scopes := change scope :: rest }
  | [] => s

/-- The same surroundings without all outer scopes. -/
def alone (s : Surroundings) : Surroundings := { s with scopes := s.scopes.take 1 }

/-- The table that a query defines under a name, with what is defined around it. -/
def commonTable? (name : String) :
    List (Nat × List CommonTable) → Option (CommonTable × List (Nat × List CommonTable))
  | [] => none
  | frame :: rest =>
      match frame.2.find? fun | .mk s _ _ => sameName s name with
      | some t => some (t, frame :: rest)
      | none => commonTable? name rest

end Surroundings

namespace Resolver

/-- Stop with an error. -/
def stop {α : Type} (e : TermError) : Resolver α := throw e

/-- Stop unless a condition holds. -/
def ensure (condition : Bool) (e : TermError) : Resolver Unit :=
  if condition then pure () else throw e

/-- A number that was not used before. -/
def freshId : Resolver Nat := modifyGet fun p => (p.nextId, { p with nextId := p.nextId + 1 })

/-- Note the cells of a formula that a name stands for. -/
def note : Formula → Resolver Unit
  | .cell level index _ _ | .call _ _ [.cell level index _ _, _] =>
      modify fun p => { p with used := (level, index) :: p.used }
  | .merged items =>
      modify fun p => { p with
        used := items.filterMap (fun
          | .cell level index _ _ => some (level, index)
          | _ => none) ++ p.used }
  | _ => pure ()

/-- The result of a look-up together with the cells that were referred to. -/
def noting {α : Type} (act : Resolver α) : Resolver (α × List (Nat × Nat)) := do
  let before := (← get).used
  modify fun p => { p with used := [] }
  let a ← act
  let used := (← get).used
  modify fun p => { p with used := used ++ before }
  return (a, used)

/-- The number of aggregates on a level. -/
def aggregateCount (level : Nat) : Resolver Nat :=
  return ((← get).aggregates.filter fun entry => entry.1 == level).length

/-- A look-up in which no aggregate of a level may occur. -/
def withoutAggregates {α : Type} (level : Nat) (act : Resolver α) : Resolver α := do
  let before ← aggregateCount level
  let a ← act
  ensure ((← aggregateCount level) == before) (.misplaced "")
  return a

/-- The arguments of an aggregate; the last one may have to be JSON. -/
def prepared (f : Aggregate) (args : List Formula) : List Formula :=
  if f.takesJson then
    args.dropLast ++ (args.getLast?.map fun x => .call (.json .quote false) .exact [x]).toList
  else args

/-- Collect an aggregate for a level. -/
def addAggregate (level : Nat) (call : AggregateCall Formula) : Resolver Formula := do
  let index ← aggregateCount level
  let call := { call with args := prepared call.aggregate call.args }
  modify fun p => { p with aggregates := p.aggregates ++ [(level, call)] }
  return .markedIf call.aggregate.isJson (.aggregate level index (Formula.askedAmong call.args))

/-- Collect a function of a window for a level. -/
def addWindow (level : Nat) (call : WindowCall Formula) : Resolver Formula := do
  let index := ((← get).windows.filter fun entry => entry.1 == level).length
  let (args, isJson) := match call.function with
    | .aggregate f => (prepared f call.args, f.isJson)
    | _ => (call.args, false)
  modify fun p => { p with windows := p.windows ++ [(level, { call with args := args })] }
  return .markedIf isJson (.window level index (Formula.askedAmong args))

/-- Take what was collected for a level. -/
def collected (level : Nat) :
    Resolver (List (AggregateCall Formula) × List (WindowCall Formula)) := do
  let p ← get
  set { p with
    aggregates := p.aggregates.filter fun entry => entry.1 != level
    windows := p.windows.filter fun entry => entry.1 != level }
  return ((p.aggregates.filter fun entry => entry.1 == level).map Prod.snd,
    (p.windows.filter fun entry => entry.1 == level).map Prod.snd)

/-- A formula in ascending or descending order. -/
def ordered (key : SortKey Formula) : SortOrder :=
  ⟨key.descending, key.nullsFirst, key.term.collation?.getD .exact⟩

/-- Formulas in ascending order. -/
def ascending (items : List Formula) : List SortOrder :=
  items.map fun x => ⟨false, true, x.collation?.getD .exact⟩

end Resolver

namespace Term

/-- A term without the collations that it asks for. -/
def uncollated : Term → Term
  | unary (.collate _) x => x.uncollated
  | x => x

/-- A term without the collations that it asks for and without hints. -/
def bare : Term → Term
  | unary (.collate _) x => x.bare
  | call ⟨f, star, distinct, [x], keys, filter, w⟩ =>
      if ["likely", "unlikely"].contains f.toLower then x.bare
      else call ⟨f, star, distinct, [x], keys, filter, w⟩
  | x => x

/-- The collation that a term asks for at its outside. -/
def outerCollation? : Term → Option Collation
  | unary (.collate k) _ => some k
  | _ => none

/-- The small integer that a term is, as it is written. -/
def position? : Term → Option Int
  | literal (.int n) => if 0 ≤ n ∧ n ≤ 2147483647 then some n else none
  | unary .plus x => x.position?
  | unary .negate x => x.position?.map fun n => -n
  | _ => none

/-- The name that a term is. -/
def name? : Term → Option String
  | name none none s _ => some s
  | _ => none

/-- The conditions that a condition consists of. -/
def conjuncts : Term → List Term
  | binary .and x y => x.conjuncts ++ y.conjuncts
  | x => [x]

end Term

namespace Shown

/-- Names without repetitions: further ones are numbered. -/
def distinctNames (taken : List String) : List String → List String
  | [] => []
  | name :: rest =>
      let numbered := (List.range (taken.length + 1)).map fun n =>
        if n = 0 then name else name ++ ":" ++ toString n
      let fresh := (numbered.find? fun s => !isListed taken s).getD name
      fresh :: distinctNames (fresh :: taken) rest

/-- The names of the values shown, for others. -/
def names (shown : List Shown) : List String :=
  distinctNames [] (shown.zipIdx.map fun (s, n) =>
    let name := s.label.getD s.name
    if name.isEmpty || isListed ["true", "false"] name then "column" ++ toString (n + 1) else name)

/-- The columns of a query whose parts show the given values. -/
def columns (parts : List (List Shown)) : List ShownColumn :=
  let first := parts.headD []
  (first.zip (names first)).zipIdx.map fun ((s, name), n) =>
    ⟨name, Formula.commonAffinity (parts.filterMap fun part => part[n]?.map Shown.formula),
      s.formula.collation?.getD .exact⟩

end Shown

/-- The columns of a walk through JSON values. -/
def walkColumns : List String :=
  ["key", "value", "type", "atom", "id", "parent", "fullkey", "path", "json", "root"]

/-- The columns of a source as cells of a level, starting at an index. -/
def Known.ofColumns (label : String) (level offset : Nat) (kind : JoinKind) (shared : List String)
    (columns : List ShownColumn) : Known :=
  let entries : List Entry := columns.zipIdx.map fun (c, n) =>
    ⟨label, c.name, .cell level (offset + n) c.affinity c.collation, false, true⟩
  ⟨label, false, entries, entries, none, kind, shared, false⟩

/-- The columns of a table as cells of a level, starting at an index. Behind them stands the
number of the row. -/
def Known.ofTable (db : Database) (table label : String) (level offset : Nat) (kind : JoinKind)
    (shared : List String) : Known :=
  let columns := db.columns table
  let entries : List Entry := columns.zipIdx.map fun (c, n) =>
    ⟨label, c.name, .cell level (offset + n) c.affinity .exact, false, true⟩
  let number : Entry :=
    match entries.find? fun e => (db.rowNumber? table).any fun c => c.name == e.column with
    | some e => e
    | none => ⟨label, "rowid", .cell level (offset + columns.length) .numeric .exact, false, false⟩
  ⟨label, true, entries, entries, some number, kind, shared, false⟩

/-- The columns of a walk through JSON values, starting at an index. Behind them stand what is
walked through and where the walk starts, and the number of the row. -/
def Known.ofWalk (label : String) (level start : Nat) (kind : JoinKind) (shared : List String) :
    Known :=
  let cell (n : Nat) : Formula := .cell level (start + n) .none .exact
  let entry (n : Nat) (name : String) : Entry :=
    let value : Formula :=
      if name = "value" then .call (.json .typed false) .exact [cell 1, cell 2] else cell n
    ⟨label, name, value, false, decide (n < 8)⟩
  let entries := walkColumns.zipIdx.map fun (name, n) => entry n name
  ⟨label, false, entries, entries, some (entry walkColumns.length "rowid"), kind, shared, false⟩

/-- The columns of several sources that are taken for one. -/
def Known.ofNested (label : Option String) (sources : List Known) (kind : JoinKind)
    (shared : List String) : Except TermError Known := do
  let scope : Scope := ⟨0, sources, [], false, false, []⟩
  let entries ← sources.zipIdx.mapM fun (source, n) => do
    let following := ((sources.drop (n + 1)).head?.map Known.shared).getD []
    let merged ← following.filterMapM fun name => do
      match ← scope.column? none none name with
      | some (x, _) => return some (⟨"", name, x, true, true⟩ : Entry)
      | none => return none
    let own := source.entries.map fun e =>
      { e with isShown := e.isShown && !isListed (source.shared ++ following) e.column }
    return merged ++ own
  let entries := entries.flatten
  let own := match label with
    | some label => entries.map fun e => { e with table := label }
    | none => []
  return ⟨label.getD "", false, entries, own, none, kind, shared, true⟩

/-- The columns that a selection of all columns shows. -/
def Scope.allShown (scope : Scope) : Except TermError (List Shown) := do
  let sources := scope.sources
  let shown ← sources.zipIdx.mapM fun (source, n) => do
    let later := sources.drop (n + 1)
    let entries := source.entries.filter fun e =>
      e.isShown && !(n != 0 && isListed source.shared e.column)
    entries.mapM fun e => do
      let merges := later.any (·.kind.keepsRight) && later.any fun s => isListed s.shared e.column
      if merges then
        match ← scope.column? none none e.column with
        | some (x, _) => return (⟨x, some e.column, e.column⟩ : Shown)
        | none => return ⟨e.formula, some e.column, e.column⟩
      else return ⟨e.formula, some e.column, e.column⟩
  return shown.flatten

/-- The columns of one table that a selection shows. -/
def Scope.shownOf (scope : Scope) (table : String) : List Shown :=
  scope.sources.flatMap fun source =>
    let entries :=
      if source.isNested && !sameName source.name table then
        source.entries.filter fun e => sameName e.table table
      else if sameName source.name table then source.own
      else []
    entries.map fun e => ⟨e.formula, some e.column, e.column⟩

end RowPolicy.Sql
