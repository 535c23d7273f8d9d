import RowPolicy.Sql.Formula
import RowPolicy.Sql.Row

/-!
# What names stand for

A column is looked up among the sources of the query around it, then among those of the
query around that one. Sources that share a column by name count as one for it. The number
of a row has names of its own, which count if no column has them, and what a query
shows can be named where nothing else has the name. A name in double quotes that is
unknown is a text, and `true` and `false` are truth values where they are not columns.
-/

namespace RowPolicy.Sql

/-- Why a query has no meaning. -/
inductive TermError where
  | unknownColumn (name : String)
  | ambiguousColumn (name : String)
  | unknownTable (name : String)
  | unknownFunction (name : String)
  | unknownWindow (name : String)
  /-- A function is called with a wrong number of arguments. -/
  | argumentCount (name : String)
  /-- An argument of a function is none that it accepts. -/
  | argument (name : String)
  /-- An aggregate or a function of a window stands where there are no rows for it. -/
  | misplaced (name : String)
  /-- A condition on groups in a query without groups. -/
  | notGrouped
  /-- A row of values stands where one value is needed. -/
  | rowMisused
  /-- Rows or queries have different numbers of columns. -/
  | columnCount
  /-- A sort key is not among what is shown. -/
  | unknownKey
  /-- Tables cannot be joined in the way that is written. -/
  | join
  /-- A window has no meaning. -/
  | window
  /-- A table is defined by itself. -/
  | circular (name : String)
  /-- The query is nested too deeply. -/
  | tooDeep
  deriving DecidableEq, Repr

/-- A column that can be named. -/
structure Entry where
  table : String
  column : String
  formula : Formula
  /-- Whether it stands for several columns that are shared. -/
  isShared : Bool
  /-- Whether it is one of all columns. -/
  isShown : Bool

/-- A source of rows with the columns that it makes known. -/
structure Known where
  name : String
  /-- Whether it is a table of the database. -/
  isTable : Bool
  entries : List Entry
  /-- The columns of the source itself, where they are not the entries. -/
  own : List Entry
  rowNumber? : Option Entry
  kind : JoinKind
  /-- The columns shared with sources in front. -/
  shared : List String
  /-- Whether it consists of several sources. -/
  isNested : Bool

/-- A value that a query shows under a name, as written or with its meaning. -/
inductive Label where
  | term (x : Term)
  | formula (x : Formula)

/-- What can be named on a level of nested queries. -/
structure Scope where
  level : Nat
  sources : List Known
  labels : List (String × Label)
  /-- Whether aggregates can be computed. -/
  aggregates : Bool
  /-- Whether functions of windows can be computed. -/
  windows : Bool
  defined : List (String × Window Term)

/-- Whether two names are the same, upper and lower case alike. -/
def sameName (a b : String) : Bool := a.toLower == b.toLower

/-- Whether a name is among some others. -/
def isListed (names : List String) (name : String) : Bool := names.any (sameName name)

namespace Scope

/-- The names of the number of a row. -/
def rowNumberNames : List String := ["rowid", "oid", "_rowid_"]

/-- The state of a look-up on one level: the number of columns found, the last of them with
its source, those that are merged with it, and the sources with numbered rows. -/
structure Search where
  count : Nat
  found : Option Entry
  place : Nat
  merged : Option (List Formula)
  numbered : List Entry

/-- The search before anything was found. -/
def Search.empty : Search := ⟨0, none, 0, none, []⟩

/-- Take up a column of the source at a place. -/
def Search.hit (s : Search) (place : Nat) (source : Known) (e : Entry) : Search :=
  let taken : Search := { s with count := s.count + 1, found := some e, place := place }
  if s.count = 0 then taken
  else if !isListed source.shared e.column || (source.isNested && s.place == place) then
    { taken with merged := none }
  else if !source.kind.keepsRight then s
  else if !source.kind.keepsLeft then { taken with count := 1, merged := none }
  else { taken with merged := some (s.merged.getD [] ++ s.found.toList.map Entry.formula) }

/-- The entries that a name can mean, of which one that is shared comes alone. -/
def matching (entries : List Entry) (table : Option String) (name : String) : List Entry :=
  let found := entries.filter fun e => sameName e.column name && table.all (sameName e.table)
  match found.findIdx? Entry.isShared with
  | some n => found.take (n + 1)
  | none => found

/-- Search a source. -/
def searchIn (schema table : Option String) (name : String) (s : Search) (source : Known × Nat) :
    Search :=
  let (source, place) := source
  let inner := if source.isNested then matching source.entries table name else []
  let s := inner.foldl (fun s e => s.hit place source e) s
  if source.isNested && (!inner.isEmpty || table.isNone) then s
  else if !table.all (sameName source.name) then s
  else if schema.isSome && !(source.isTable && schema.all (sameName "main")) then s
  else
    let s : Search := match source.own.find? fun e => sameName e.column name with
      | some e => s.hit place source e
      | none => s
    if s.count = 0 then { s with numbered := s.numbered ++ source.rowNumber?.toList } else s

/-- What a search has found: the formula and the proper name of the column. -/
def Search.result (s : Search) (name : String) : Except TermError (Option (Formula × String)) :=
  match s.count, s.found, s.merged, s.numbered with
  | 1, some e, none, _ => .ok (some (e.formula, e.column))
  | 0, _, _, [] => .ok none
  | 0, _, _, [e] =>
      if isListed rowNumberNames name then .ok (some (e.formula, e.column)) else .ok none
  | 0, _, _, _ =>
      if isListed rowNumberNames name then .error (.ambiguousColumn name) else .ok none
  | n, some e, some items, _ =>
      if items.length + 1 = n then .ok (some (.merged (items ++ [e.formula]), name))
      else .error (.ambiguousColumn name)
  | _, _, _, _ => .error (.ambiguousColumn name)

/-- The column that a name stands for on a level. -/
def column? (scope : Scope) (schema table : Option String) (name : String) :
    Except TermError (Option (Formula × String)) :=
  (scope.sources.zipIdx.foldl (searchIn schema table name) .empty).result name

/-- What is shown under a name. -/
def label? (scope : Scope) (name : String) : Option Label :=
  (scope.labels.find? fun entry => sameName entry.1 name).map Prod.snd

end Scope

end RowPolicy.Sql
