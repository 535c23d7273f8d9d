import RowPolicy.Join.Printer
import RowPolicy.Log
import RowPolicy.Query.Records

/-!
# Logging of queries

Building a statement leaves log entries: a warning where denying rules cannot be
observed, and, if queries are to be logged, a summary of every statement built.
-/

namespace RowPolicy.Query

/-- The number of rules whose conditions are no mappings. -/
def unmergeableCount (q : Query) : Nat :=
  q.rules.countP fun rule => !rule.condition.isMergeable

/-- The warning that conditions are used side by side. -/
def fallbackEntry (q : Query) : LogEntry where
  level := .warning
  message :=
    "Rules for (" ++ q.entity ++ ", " ++ q.action.text ++ ") include "
      ++ toString q.unmergeableCount
      ++ " SQL fragment(s); OR-ing raw conditions, cannot rules are not subtracted"

/-- The text of a filter in the log; values are not shown. -/
def predicateText : Option Sql.Expr → Except Sql.PrintError String
  | none => .ok "None"
  | some e => e.bound.map (·.text)

/-- The entry about the rules, the filter and the joins of a statement that was built. -/
def detailEntry (q : Query) (built : Records) (filter : String) : LogEntry where
  level := .debug
  message :=
    "Rules for " ++ q.entity ++ "." ++ q.action.plainText ++ ": " ++ Rule.listText q.rules
      ++ ", filter: " ++ filter ++ ", joins: " ++ (built.joins.map JoinList.text).getD "None"

/-- The entries for a statement that was built. The last one is left out if the filter has
no text. -/
def summary (q : Query) (built : Records) : List LogEntry :=
  if q.rules.isEmpty then
    [⟨.warning, "No rule defined for (" ++ q.entity ++ ", " ++ q.action.text
      ++ "), deny-by-default applied"⟩]
  else
    ⟨.info, "Accessible query: " ++ q.entity ++ "." ++ q.action.plainText ++ ", "
        ++ toString q.rules.length ++ " rule(s), strategy=" ++ q.strategy.name⟩
      :: match predicateText built.predicate with
        | .ok filter => [q.detailEntry built filter]
        | .error _ => []

/-- The entries that building the statement leaves, also if it fails after the
warning. -/
def log (q : Query) : List LogEntry :=
  let warning :=
    if q.strategy = .fallback ∧ q.config.onFallbackQuery = .warn then [q.fallbackEntry] else []
  let summary :=
    match q.records with
    | .ok built => if q.config.logQueries.isPresent then q.summary built else []
    | .error _ => []
  warning ++ summary

/-- Why the filter cannot be shown in a log from the threshold on. -/
def logFailure? (q : Query) (threshold : LogLevel) : Option Sql.PrintError :=
  match q.records with
  | .error _ => none
  | .ok built =>
      if q.config.logQueries.isPresent ∧ ¬q.rules.isEmpty ∧ threshold = .debug then
        match predicateText built.predicate with
        | .ok _ => none
        | .error e => some e
      else none

end RowPolicy.Query
