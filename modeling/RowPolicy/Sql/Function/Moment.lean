import RowPolicy.Sql.Moment.Printer
import RowPolicy.Sql.Moment.Reader
import RowPolicy.Sql.Operation

/-!
# Functions of moments

A moment is given by a text, or by a number, and by modifiers. Without anything it is the
present one, which is fixed so that every function has one value.
-/

namespace RowPolicy.Sql

/-- The count of the present moment. -/
def Moment.present : Int := 212661849600000

/-- A function of moments. -/
inductive MomentFunction where
  | date
  | time
  | dateAndTime
  /-- The number of days. -/
  | days
  /-- The number of seconds since the year 1970. -/
  | seconds
  /-- By a format. -/
  | written
  | difference
  deriving DecidableEq, Repr

namespace MomentFunction

/-- The names of the functions. -/
def names : List (String × MomentFunction) :=
  [("date", date), ("time", time), ("datetime", dateAndTime), ("julianday", days),
    ("unixepoch", seconds), ("strftime", written), ("timediff", difference),
    ("current_date", date), ("current_time", time), ("current_timestamp", dateAndTime)]

/-- Whether a function can be called with so many arguments. -/
def accepts (count : Nat) : MomentFunction → Bool
  | difference => count == 2
  | _ => true

/-- The text of a cell that is there. -/
def text? (cell : Scalar) : Option (List Char) :=
  if cell = .null then none else some (cell.cellText.toList.takeWhile (· ≠ '\x00'))

/-- The moment that some cells stand for. -/
def moment? (args : List Scalar) : Option Moment := do
  let start ← match args.head? with
    | none => pure none
    | some (.bool b) => some (some (.ofNumber (if b then 1 else 0)))
    | some (.int n) => some (some (.ofNumber (Clock.held n)))
    | some (.float x) => x.value?.map fun r => some (.ofNumber r)
    | some cell => do some <$> Moment.ofText? Moment.present (← text? cell)
  Moment.ofTexts? Moment.present start (← (args.drop 1).mapM text?)

/-- The cell of some characters. -/
def cell (cs : List Char) : Scalar := .str (String.ofList cs)

/-- The value of a function, if its arguments stand for a moment. -/
def value? (f : MomentFunction) (args : List Scalar) : Option Scalar := do
  match f, args with
  | date, args => return cell (← (← moment? args).dated).dateText
  | time, args => return cell (← (← moment? args).timed).timeText
  | dateAndTime, args =>
      let m ← (← moment? args).complete
      return cell (m.dateText ++ ' ' :: m.timeText)
  | days, args => return .float (← moment? args).days
  | seconds, args =>
      let m ← moment? args
      return if m.fractions then .float m.sinceEpochExactly else .int m.sinceEpoch
  | written, format :: args =>
      let m ← (← moment? args).complete
      return cell (← m.written? (← text? format))
  | difference, [a, b] =>
      let a ← (← moment? [a]).complete
      let b ← (← moment? [b]).complete
      return cell (a.differenceText b)
  | _, _ => none

/-- The value of a function. -/
def apply (f : MomentFunction) (args : List Scalar) : Scalar := (f.value? args).getD .null

end MomentFunction

end RowPolicy.Sql
