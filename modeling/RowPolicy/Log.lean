/-!
# Log entries

Entries are written at a level; a log shows those at or above its threshold.
-/

namespace RowPolicy

/-- The levels of log entries. -/
inductive LogLevel where
  | debug
  | info
  | warning
  | error
  | critical
  deriving DecidableEq, Repr

namespace LogLevel

/-- All levels, lowest first. -/
def all : List LogLevel := [debug, info, warning, error, critical]

/-- The name of a level. -/
def name : LogLevel → String
  | debug => "DEBUG"
  | info => "INFO"
  | warning => "WARNING"
  | error => "ERROR"
  | critical => "CRITICAL"

/-- The level with the given name. -/
def ofName? (s : String) : Option LogLevel := all.find? fun level => level.name == s

/-- The place of a level in the order. -/
def rank : LogLevel → Nat
  | debug => 0
  | info => 1
  | warning => 2
  | error => 3
  | critical => 4

end LogLevel

/-- A log entry. -/
structure LogEntry where
  level : LogLevel
  message : String
  deriving DecidableEq, Repr

/-- The entries at or above a threshold. -/
def LogEntry.shown (threshold : LogLevel) (entries : List LogEntry) : List LogEntry :=
  entries.filter fun entry => threshold.rank ≤ entry.level.rank

end RowPolicy
