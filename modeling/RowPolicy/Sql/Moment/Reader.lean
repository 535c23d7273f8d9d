import RowPolicy.Number.Leading
import RowPolicy.Sql.Moment
import RowPolicy.Value.Conversion

/-!
# Reading moments

A moment is written as a date, a time, both of them or a number. Modifiers change it one
after another: they add to it, take it back to the start of a period, or say what a number
counts. The present moment is given, and clocks show the common time of the world.
-/

namespace RowPolicy.Sql

namespace Moment

open Clock (held)

/-- A number of exactly so many digits, and what follows it. -/
def digits? (count low high : Nat) (cs : List Char) : Option (Nat × List Char) := do
  let n ← Numeral.digits? (cs.take count)
  if (cs.take count).length = count ∧ low ≤ n ∧ n ≤ high then
    return (n, cs.drop count)
  else none

/-- A given character, and what follows it. -/
def mark? (c : Char) : List Char → Option (List Char)
  | d :: cs => if c = d then some cs else none
  | [] => none

/-- What follows spaces. -/
def unspaced (cs : List Char) : List Char := cs.dropWhile Numeral.isSpace

/-- Hours and minutes. -/
def hourMinute? (hours : Nat) (cs : List Char) : Option (Nat × Nat × List Char) := do
  let (h, cs) ← digits? 2 0 hours cs
  let cs ← mark? ':' cs
  let (m, cs) ← digits? 2 0 59 cs
  return (h, m, cs)

/-- The zone behind a time, up to the end of the text. -/
def zone? (cs : List Char) : Option Int := do
  match unspaced cs with
  | [] => return 0
  | 'Z' :: cs | 'z' :: cs => if (unspaced cs).isEmpty then return 0 else none
  | c :: cs =>
      if c ≠ '+' ∧ c ≠ '-' then none
      let (h, m, cs) ← hourMinute? 14 cs
      if !(unspaced cs).isEmpty then none
      let minutes : Int := m + h * 60
      return if c = '-' then -minutes else minutes

/-- The fraction of a second: at most 999 milliseconds. -/
def fraction (cs : List Char) : Rat :=
  let n := (Numeral.digits? cs).getD 0
  let r := held (held n / held (Nat.pow 10 cs.length : Nat))
  let most := held (999 / 1000)
  if most < r then most else r

/-- A time of day with its zone, up to the end of the text. -/
def time? (cs : List Char) : Option (Clock × Int) := do
  let (h, m, cs) ← hourMinute? 24 cs
  match cs with
  | ':' :: cs =>
      let (s, cs) ← digits? 2 0 59 cs
      match cs with
      | '.' :: c :: rest =>
          if c.isDigit then
            let ms := fraction ((c :: rest).takeWhile Char.isDigit)
            let zone ← zone? ((c :: rest).dropWhile Char.isDigit)
            return (⟨h, m, held (s + ms)⟩, zone)
          else none
      | cs => return (⟨h, m, s⟩, ← zone? cs)
  | cs => return (⟨h, m, 0⟩, ← zone? cs)

/-- A date, with a time or without. -/
def date? (cs : List Char) : Option Moment := do
  let negative := cs.head? == some '-'
  let cs := if negative then cs.drop 1 else cs
  let (year, cs) ← digits? 4 0 14712 cs
  let (month, cs) ← digits? 2 1 12 (← mark? '-' cs)
  let (day, cs) ← digits? 2 1 31 (← mark? '-' cs)
  let d : Day := ⟨if negative then -(year : Int) else year, month, day⟩
  let m : Moment := { unknown with day? := some d, excess := d.excess }
  match cs.dropWhile fun c => Numeral.isSpace c || c = 'T' with
  | [] => return m
  | cs =>
      let (c, zone) ← time? cs
      let m := { m with clock? := some c, zone := zone }
      if zone = 0 then return m else m.counted

/-- Whether a text is a given word, upper and lower case alike. -/
def isWord (cs : List Char) (word : String) : Bool := cs.map Char.toLower == word.toList

/-- The moment that is written in a text. -/
def ofText? (now : Int) (cs : List Char) : Option Moment :=
  match date? cs with
  | some m => some m
  | none =>
      match time? cs with
      | some (c, zone) => some { unknown with clock? := some c, zone := zone }
      | none =>
          if isWord cs "now" then some (ofCount now)
          else
            match Numeral.entire? cs with
            | some n => n.nearest.value?.map ofNumber
            | none =>
                if isWord cs "subsec" || isWord cs "subsecond" then
                  some { ofCount now with fractions := true }
                else none

/-- The moment that a number of seconds counted from the year 1970 stands for. -/
def ofSeconds? (m : Moment) (r : Rat) : Option Moment :=
  let n := held (held (r * 1000) + 210866760000000)
  if 0 ≤ n ∧ n < 464269060800000 then
    some { m.onlyCounted with count? := some (held (n + 1 / 2)).floor, open? := none }
  else none

/-- The units of time with their lengths in seconds and with what must not be added. -/
def units : List (String × Rat × Rat) :=
  [("second", 464270000000000, 1), ("minute", 7737900000000, 60), ("hour", 128970000000, 3600),
    ("day", 5373485, 86400), ("month", 176546, 2592000), ("year", 14713, 31536000)]

/-- The integer part of a number. -/
def whole (r : Rat) : Int := if r < 0 then -(-r).floor else r.floor

/-- A moment some units of time later. -/
def laterBy? (m : Moment) (r : Rat) (name : List Char) : Option Moment := do
  let name := name.map Char.toLower
  if name.length < 3 ∨ 10 < name.length then none
  let name := if name.getLast? = some 's' then name.dropLast else name
  let m ← m.counted
  let (unit, limit, length) ← units.find? fun entry => entry.1.toList == name
  if !(decide (-limit < r) && decide (r < limit)) then none
  let m := { m with excess := 0 }
  let shifted ← match unit with
    | "month" => do
        let m ← m.complete
        pure (m.onDay (m.day.withMonth (m.day.month + whole r)))
    | "year" => do
        let m ← m.complete
        pure (m.onDay { m.day with year := m.day.year + whole r })
    | _ => pure m
  let rest := if unit = "month" ∨ unit = "year" then held (r - whole r) else r
  let m ← shifted.counted
  let half : Rat := if r < 0 then -1 / 2 else 1 / 2
  return (m.later (whole (held (held (held (rest * 1000) * length) + half)))).onlyCounted

/-- A moment later or earlier by a time that is written with colons. -/
def laterByClock? (m : Moment) (negative : Bool) (cs : List Char) : Option Moment := do
  let (c, zone) ← time? (if (cs.head?.map Char.isDigit).getD false then cs else cs.drop 1)
  let time ← ({ unknown with clock? := some c, zone := zone } : Moment).counted
  let n := (time.count - 43200000).tmod Day.length
  let m ← m.counted
  return (m.onlyCounted).later (if negative then -n else n)

/-- A moment later or earlier by years, months and days, and by a time if one follows. -/
def laterByDate? (m : Moment) (negative : Bool) (places : Nat) (cs : List Char) :
    Option Moment := do
  let (year, cs) ← digits? places 0 14712 cs
  let (month, cs) ← digits? 2 0 11 (← mark? '-' cs)
  let (day, cs) ← digits? 2 0 30 (← mark? '-' cs)
  let m ← m.complete
  let sign : Int := if negative then -1 else 1
  let d := { m.day with year := m.day.year + sign * year }
  let m ← (m.onDay (d.withMonth (d.month + sign * month))).counted
  let m := { m with day? := none, clock? := none }.later (sign * day * Day.length)
  match cs with
  | [] => return m
  | c :: cs =>
      if !Numeral.isSpace c then none
      let _ ← hourMinute? 24 cs
      m.laterByClock? negative cs

/-- The length of the number in front of a modifier, which a date may follow. -/
def numberLength (cs : List Char) : Nat :=
  let isEnd (n : Nat) (c : Char) : Bool :=
    c = ':' || Numeral.isSpace c
      || (c = '-' && ((n = 5 && (digits? 4 0 14712 (cs.drop 1)).isSome)
        || (n = 6 && (digits? 5 0 14712 (cs.drop 1)).isSome)))
  ((cs.zipIdx.drop 1).takeWhile fun (c, n) => !isEnd n c).length + 1

/-- A moment moved by a modifier that begins with a number. -/
def moved? (m : Moment) (cs : List Char) : Option Moment := do
  let n := numberLength cs
  let number ← Numeral.entire? (cs.take n)
  let r ← number.nearest.value?
  let first := cs.headD ' '
  match cs.drop n with
  | '-' :: _ =>
      if first ≠ '+' ∧ first ≠ '-' then none
      m.laterByDate? (first = '-') (n - 1) (cs.drop 1)
  | ':' :: _ => m.laterByClock? (first = '-') cs
  | rest => m.laterBy? r (unspaced rest)

/-- The start of a period around a moment. -/
def startOf? (m : Moment) (period : List Char) : Option Moment := do
  if m.count?.isNone && m.day?.isNone && m.clock?.isNone then none
  let m ← m.dated
  let at0 (d : Day) : Moment :=
    { m with day? := some d, clock? := some ⟨0, 0, 0⟩, count? := none, open? := none, zone := 0 }
  if isWord period "month" then return at0 { m.day with day := 1 }
  if isWord period "year" then return at0 { m.day with month := 1, day := 1 }
  if isWord period "day" then return at0 m.day
  none

/-- The next day of the week with a number, or the day itself. -/
def weekday? (m : Moment) (cs : List Char) : Option Moment := do
  let n ← (← Numeral.entire? cs).nearest.truncate?
  let r ← (← Numeral.entire? cs).nearest.value?
  if r ≠ n ∨ n < 0 ∨ 7 ≤ n then none
  let m ← m.complete
  let m ← ({ m with zone := 0, count? := none } : Moment).counted
  let today := sinceSunday m.count
  let today := if n < today then today - 7 else today
  return (m.later ((n - today) * Day.length)).onlyCounted

/-- A number taken for what its size suggests. -/
def guessed (m : Moment) : Moment :=
  match m.count?, m.open? with
  | none, some r =>
      if -210866760000 ≤ r ∧ r ≤ 253402300799 then
        let n := held (held (r * 1000) + 210866760000000)
        { m.onlyCounted with count? := some (whole (held (n + 1 / 2))), open? := none }
      else m
  | _, _ => { m with open? := none }

/-- A moment changed by the modifier at a place, counted from one. -/
def modified? (place : Nat) (m : Moment) (cs : List Char) : Option Moment := do
  if (cs.head?.map fun c => c.isDigit || c = '+' || c = '-').getD false then m.moved? cs
  else if isWord (cs.take 8) "weekday " then m.weekday? (cs.drop 8)
  else if isWord (cs.take 9) "start of " then m.startOf? (cs.drop 9)
  else
    match String.ofList (cs.map Char.toLower) with
    | "auto" => if 1 < place then none else return m.guessed
    | "ceiling" => return { (← m.counted).onlyCounted with excess := 0 }
    | "floor" =>
        let m ← m.counted
        return (m.later (-(m.excess * Day.length))).onlyCounted
    | "julianday" =>
        if 1 < place ∨ m.count?.isNone ∨ m.open?.isNone then none
        else return { m with open? := none }
    | "localtime" =>
        let first : Moment := { unknown with day? := some ⟨2000, 1, 1⟩, clock? := some ⟨0, 0, 0⟩ }
        return (m.counted.map onlyCounted).getD first
    | "unixepoch" => if 1 < place then none else m.ofSeconds? (← m.open?)
    | "utc" => return (m.counted.getD (ofCount 0)).onlyCounted
    | "subsec" | "subsecond" => return { m with fractions := true }
    | _ => none

/-- The moment of a text with modifiers, or the present one. -/
def ofTexts? (now : Int) (start : Option Moment) (modifiers : List (List Char)) :
    Option Moment := do
  let m := start.getD (ofCount now)
  let m ← modifiers.zipIdx.foldlM (fun m (cs, n) => m.modified? (n + 1) cs) m
  let m ← m.counted
  if !isValid m.count then none
  if modifiers.isEmpty && 28 < m.day.day then return { m with day? := none } else return m

end Moment

end RowPolicy.Sql
