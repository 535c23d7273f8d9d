import RowPolicy.Number.Binary64

/-!
# Moments

A moment is counted in milliseconds from noon of a day in the year -4713, in the calendar
of today. It can be given by a date, by a time of day on the first day of the year 2000, or
by both. A number that stands for a moment is kept until it is clear what it counts.
-/

namespace RowPolicy.Sql

/-- A day of the calendar. -/
structure Day where
  year : Int
  month : Int
  day : Int
  deriving DecidableEq, Repr

/-- A time of day. -/
structure Clock where
  hour : Int
  minute : Int
  second : Rat
  deriving DecidableEq, Repr

/-- The milliseconds of a day. -/
def Day.length : Int := 86400000

/-- A number as a double holds it. -/
def Clock.held (r : Rat) : Rat := (Binary64.ofRat r).value?.getD 0

namespace Day

/-- The count of milliseconds at which a day begins. -/
def start (d : Day) : Int :=
  let year := if d.month ≤ 2 then d.year - 1 else d.year
  let month := if d.month ≤ 2 then d.month + 12 else d.month
  let century := (year + 4800).tdiv 100
  let leap := 38 - century + century.tdiv 4
  let days := (36525 * (year + 4716)).tdiv 100 + (306001 * (month + 1)).tdiv 10000 + d.day + leap
  days * length - 1524 * length - 43200000

/-- The day on which a count lies. -/
def ofCount (n : Int) : Day :=
  let z := (n + 43200000).tdiv length
  let alpha := (((z : Rat) + 3204475 / 100) / (3652425 / 100)).floor - 52
  let a := z + 1 + alpha - (alpha + 100).tdiv 4 + 25
  let b := a + 1524
  let c := (((b : Rat) - 1221 / 10) / (36525 / 100)).floor
  let d := (36525 * (c.emod 32768)).tdiv 100
  let e := (((b - d : Int) : Rat) / (306001 / 10000)).floor
  let x := ((306001 / 10000 : Rat) * e).floor
  let month := if e < 14 then e - 1 else e - 13
  ⟨if 2 < month then c - 4716 else c - 4715, month, b - d - x⟩

/-- The days by which a date goes beyond the end of its month. -/
def excess (d : Day) : Int :=
  if d.day ≤ 28 ∨ [1, 3, 5, 7, 8, 10, 12].contains d.month then 0
  else if d.month ≠ 2 then if d.day = 31 then 1 else 0
  else if d.year.tmod 4 ≠ 0 ∨ (d.year.tmod 100 = 0 ∧ d.year.tmod 400 ≠ 0) then d.day - 28
  else d.day - 29

/-- A day with another month, which may lie outside of the year. -/
def withMonth (d : Day) (month : Int) : Day :=
  let years := if 0 < month then (month - 1).tdiv 12 else (month - 12).tdiv 12
  { d with year := d.year + years, month := month - years * 12 }

end Day

namespace Clock

/-- The milliseconds of a time of day. -/
def length (c : Clock) : Int :=
  c.hour * 3600000 + c.minute * 60000 + (held (held (c.second * 1000) + 1 / 2)).floor

/-- The time of day at a count. -/
def ofCount (n : Int) : Clock :=
  let time := (n + 43200000).tmod Day.length
  let minutes := time.tdiv 60000
  ⟨minutes.tdiv 60, minutes.tmod 60, held ((time.tmod 60000 : Int) / 1000)⟩

end Clock

/-- A moment, by what is known of it. -/
structure Moment where
  /-- The milliseconds counted so far. -/
  count? : Option Int
  day? : Option Day
  clock? : Option Clock
  /-- A number of which it is open what it counts. -/
  open? : Option Rat
  /-- The minutes by which the clock goes ahead. -/
  zone : Int
  /-- The days by which the date goes beyond the end of its month. -/
  excess : Int
  /-- Whether fractions of seconds are shown. -/
  fractions : Bool
  deriving DecidableEq, Repr

namespace Moment

open Clock (held)

/-- The moment of which nothing is known. -/
def unknown : Moment := ⟨none, none, none, none, 0, 0, false⟩

/-- The moment at a count of milliseconds. -/
def ofCount (n : Int) : Moment := { unknown with count? := some n }

/-- Whether a count belongs to one of the years from -4713 to 9999. -/
def isValid (n : Int) : Bool := decide (0 ≤ n ∧ n ≤ 464269060799999)

/-- The moment that a number stands for: at first sight it counts days. -/
def ofNumber (r : Rat) : Moment :=
  let count? := if 0 ≤ r ∧ r < 10746969 / 2 then some (held (held (r * Day.length) + 1 / 2)).floor
    else none
  { unknown with count? := count?, open? := some r }

/-- The moment with its count. -/
def counted (m : Moment) : Option Moment := do
  if m.count?.isSome then return m
  let d := m.day?.getD ⟨2000, 1, 1⟩
  if d.year < -4713 ∨ 9999 < d.year ∨ m.open?.isSome then none
  match m.clock? with
  | none => return { m with count? := some d.start }
  | some c =>
      let n := d.start + c.length
      if m.zone = 0 then return { m with count? := some n }
      else
        return { m with
          count? := some (n - m.zone * 60000), day? := none, clock? := none, zone := 0 }

/-- The moment of which only the count is kept. -/
def onlyCounted (m : Moment) : Moment := { m with day? := none, clock? := none, zone := 0 }

/-- The moment with its day. -/
def dated (m : Moment) : Option Moment :=
  match m.day?, m.count? with
  | some _, _ => some m
  | none, none => some { m with day? := some ⟨2000, 1, 1⟩ }
  | none, some n => if isValid n then some { m with day? := some (.ofCount n) } else none

/-- The moment with its time of day. -/
def timed (m : Moment) : Option Moment := do
  if m.clock?.isSome then return m
  let m ← m.counted
  return { m with clock? := some (.ofCount (m.count?.getD 0)), open? := none }

/-- The moment with its day and its time. -/
def complete (m : Moment) : Option Moment := m.dated.bind timed

/-- The day of a moment that has one. -/
def day (m : Moment) : Day := m.day?.getD ⟨2000, 1, 1⟩

/-- The time of a moment that has one. -/
def clock (m : Moment) : Clock := m.clock?.getD ⟨0, 0, 0⟩

/-- The count of a moment that has one. -/
def count (m : Moment) : Int := m.count?.getD 0

/-- The moment on another day at the same time. -/
def onDay (m : Moment) (d : Day) : Moment :=
  { m with day? := some d, count? := none, excess := d.excess }

/-- The moment some milliseconds later. -/
def later (m : Moment) (n : Int) : Moment := { m with count? := m.count?.map (· + n) }

/-- The number of days from the last Monday to a count. -/
def sinceMonday (n : Int) : Int := ((n + 43200000).tdiv Day.length).tmod 7

/-- The number of days from the last Sunday to a count. -/
def sinceSunday (n : Int) : Int := ((n + 129600000).tdiv Day.length).tmod 7

/-- The number of days from the first day of the year of a moment with a day. -/
def sinceNewYear (m : Moment) : Int :=
  let first : Day := { m.day with month := 1, day := 1 }
  let start := first.start + m.clock.length
  (m.count - start + 43200000).tdiv Day.length

/-- The moment on the Thursday of the same week. -/
def thursday (m : Moment) : Moment :=
  let n := m.count + (3 - sinceMonday m.count) * Day.length
  { m with count? := some n, day? := some (.ofCount n) }

end Moment

end RowPolicy.Sql
