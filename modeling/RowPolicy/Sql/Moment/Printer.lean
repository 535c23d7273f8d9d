import RowPolicy.Sql.Function.Format
import RowPolicy.Sql.Moment

/-!
# Writing moments

A moment is written as a date, as a time or as both, or by a format whose directives stand
for its parts. The difference of two moments is written as the years, months, days and time
that lead from one to the other.
-/

namespace RowPolicy.Sql

namespace Moment

open Clock (held)

/-- A number with at least so many digits, filled up with a character; the sign counts as one
of them. -/
def filled (c : Char) (width : Nat) (n : Int) : List Char :=
  let digits := Nat.toDigits 10 n.natAbs
  if n < 0 then
    if c = '0' then '-' :: List.replicate (width - 1 - digits.length) c ++ digits
    else List.replicate (width - 1 - digits.length) c ++ '-' :: digits
  else List.replicate (width - digits.length) c ++ digits

/-- A number with at least two digits. -/
def two (n : Int) : List Char := filled '0' 2 n

/-- The full seconds of a time. -/
def seconds (m : Moment) : Int := m.clock.second.floor

/-- Seconds with three places. -/
def precise (r : Rat) : List Char :=
  let n := (held (held (r * 1000) + 1 / 2)).floor
  two (n.tdiv 1000) ++ '.' :: filled '0' 3 (n.tmod 1000)

/-- The time of a moment. -/
def timeText (m : Moment) : List Char :=
  two m.clock.hour ++ ':' :: two m.clock.minute ++ ':' ::
    (if m.fractions then precise m.clock.second else two m.seconds)

/-- The date of a moment. -/
def dateText (m : Moment) : List Char :=
  (if m.day.year < 0 then ['-'] else []) ++ filled '0' 4 m.day.year.natAbs ++ '-' ::
    two m.day.month ++ '-' :: two m.day.day

/-- The count of days of a moment. -/
def days (m : Moment) : Binary64 := .ofRat (m.count / Day.length)

/-- The seconds since the year 1970. -/
def sinceEpoch (m : Moment) : Int := m.count.tdiv 1000 - 210866760000

/-- The seconds since the year 1970 with their fraction. -/
def sinceEpochExactly (m : Moment) : Binary64 := .ofRat ((m.count - 210866760000000 : Int) / 1000)

/-- A double with so many significant digits, or so many places. -/
def realText (letter : Char) (precision : Nat) (x : Binary64) : List Char :=
  Directive.real { Directive.plain with precision := some precision } letter x

/-- What a letter stands for in a format. -/
def part? (m : Moment) (letter : Char) : Option (List Char) :=
  let hour := m.clock.hour
  let short := let h := if 12 < hour then hour - 12 else hour
    if h = 0 then 12 else h
  match letter with
  | 'd' => some (two m.day.day)
  | 'e' => some (filled ' ' 2 m.day.day)
  | 'f' =>
      some (Directive.real { Directive.plain with
        zeros := true, width := 6, precision := some 3 } 'f' (.ofRat m.clock.second))
  | 'F' =>
      some (filled '0' 4 m.day.year ++ '-' :: two m.day.month ++ '-' :: two m.day.day)
  | 'g' => some (two (m.thursday.day.year.tmod 100))
  | 'G' => some (filled '0' 4 m.thursday.day.year)
  | 'H' => some (two hour)
  | 'k' => some (filled ' ' 2 hour)
  | 'I' => some (two short)
  | 'l' => some (filled ' ' 2 short)
  | 'j' => some (filled '0' 3 (m.sinceNewYear + 1))
  | 'J' => some (realText 'g' 16 m.days)
  | 'm' => some (two m.day.month)
  | 'M' => some (two m.clock.minute)
  | 'p' => some (if 12 ≤ hour then ['P', 'M'] else ['A', 'M'])
  | 'P' => some (if 12 ≤ hour then ['p', 'm'] else ['a', 'm'])
  | 'R' => some (two hour ++ ':' :: two m.clock.minute)
  | 's' =>
      some (if m.fractions then realText 'f' 3 m.sinceEpochExactly
        else (toString m.sinceEpoch).toList)
  | 'S' => some (two m.seconds)
  | 'T' => some (two hour ++ ':' :: two m.clock.minute ++ ':' :: two m.seconds)
  | 'u' =>
      let n := sinceSunday m.count
      some (toString (if n = 0 then 7 else n)).toList
  | 'w' => some (toString (sinceSunday m.count)).toList
  | 'U' => some (two ((m.sinceNewYear - sinceSunday m.count + 7).tdiv 7))
  | 'V' => some (two (m.thursday.sinceNewYear.tdiv 7 + 1))
  | 'W' => some (two ((m.sinceNewYear - sinceMonday m.count + 7).tdiv 7))
  | 'Y' => some (filled '0' 4 m.day.year)
  | '%' => some ['%']
  | _ => none

/-- A moment with a day and a time written by a format. -/
def written? (m : Moment) : List Char → Option (List Char)
  | [] => some []
  | ['%'] => none
  | '%' :: c :: cs => do return (← m.part? c) ++ (← m.written? cs)
  | c :: cs => do return c :: (← m.written? cs)

/-- The moment with other years and months, and with its count. -/
def moveTo (m : Moment) (year month : Int) : Moment :=
  let m : Moment := { m with day? := some { m.day with year := year, month := month } }
  { m with count? := some (m.day.start + m.clock.length) }

/-- The number of months by which the later moment is moved back, one by one, until it is not
beyond the earlier one, and the moment moved. -/
def backtrack (fuel : Nat) (passed : Moment → Bool) (step : Int) (m : Moment) (years months : Int) :
    Moment × Int × Int :=
  match fuel with
  | 0 => (m, years, months)
  | fuel + 1 =>
      if !passed m then (m, years, months)
      else
        let (years, months) := if months = 0 then (years - 1, 11) else (years, months - 1)
        let month := m.day.month + step
        let m :=
          if month < 1 then m.moveTo (m.day.year - 1) 12
          else if 12 < month then m.moveTo (m.day.year + 1) 1
          else m.moveTo m.day.year month
        backtrack fuel passed step m years months

/-- The text of the time from one moment to another, both of them with a day and a time. -/
def differenceText (a b : Moment) : List Char :=
  let forward := decide (b.count ≤ a.count)
  let years := if forward then a.day.year - b.day.year else b.day.year - a.day.year
  let moved := if years = 0 then b else b.moveTo a.day.year b.day.month
  let months := if forward then a.day.month - b.day.month else b.day.month - a.day.month
  let (years, months) := if months < 0 then (years - 1, months + 12) else (years, months)
  let moved := if months = 0 then moved else moved.moveTo moved.day.year a.day.month
  let passed (m : Moment) : Bool :=
    if forward then decide (a.count < m.count) else decide (m.count < a.count)
  let (moved, years, months) := backtrack 24 passed (if forward then -1 else 1) moved years months
  let rest := if forward then a.count - moved.count else moved.count - a.count
  let n := rest + 148699540800000
  let day := Day.ofCount n
  let clock := Clock.ofCount n
  (if forward then '+' else '-') :: filled '0' 4 years ++ '-' :: two months ++ '-' ::
    two (day.day - 1) ++ ' ' :: two clock.hour ++ ':' :: two clock.minute ++ ':' ::
    Directive.real { Directive.plain with
      zeros := true, width := 6, precision := some 3 } 'f' (.ofRat clock.second)

end Moment

end RowPolicy.Sql
