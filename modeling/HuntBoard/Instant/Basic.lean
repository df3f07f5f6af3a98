-- Points in time, held as the civil date and time of UTC, with leap seconds.

namespace HuntBoard

/-! ## Dates -/

def isLeapYear (y : Int) : Bool := y % 4 == 0 && (y % 100 != 0 || y % 400 == 0)

/-- The days of a month of a year; none in a month that is not in the calendar. -/
def daysIn (year : Int) (month : Nat) : Nat :=
  match month with
  | 1 | 3 | 5 | 7 | 8 | 10 | 12 => 31
  | 4 | 6 | 9 | 11 => 30
  | 2 => if isLeapYear year then 29 else 28
  | _ => 0

/-- The first and the last year that a date can be in. -/
def firstYear : Int := -262143

def lastYear : Int := 262142

/-- A day of the calendar, extended to all years from the first to the last. -/
structure Date where
  year : Int
  month : Nat
  day : Nat
  first_le : firstYear ≤ year
  le_last : year ≤ lastYear
  day_pos : 1 ≤ day
  day_le : day ≤ daysIn year month
  deriving DecidableEq

namespace Date

/-- The day with these numbers, if the calendar has it. -/
def of? (year : Int) (month day : Nat) : Option Date :=
  if h : firstYear ≤ year ∧ year ≤ lastYear ∧ 1 ≤ day ∧ day ≤ daysIn year month then
    some ⟨year, month, day, h.1, h.2.1, h.2.2.1, h.2.2.2⟩
  else none

/-- The day after. -/
def next? (d : Date) : Option Date :=
  match of? d.year d.month (d.day + 1) with
  | some n => some n
  | none =>
    match of? d.year (d.month + 1) 1 with
    | some n => some n
    | none => of? (d.year + 1) 1 1

/-- The day before. -/
def previous? (d : Date) : Option Date :=
  match of? d.year d.month (d.day - 1) with
  | some p => some p
  | none =>
    match of? d.year (d.month - 1) (daysIn d.year (d.month - 1)) with
    | some p => some p
    | none => of? (d.year - 1) 12 31

/-- Days since the first of January of the year 0. -/
def dayNumber (d : Date) : Int :=
  let before := ((List.range d.month).map (daysIn d.year)).foldl (· + ·) 0
  365 * d.year + Int.fdiv (d.year + 3) 4 - Int.fdiv (d.year + 99) 100 +
    Int.fdiv (d.year + 399) 400 + (before + d.day - 1 : Nat)

/-- The name of the day in the week. -/
def weekday (d : Date) : String :=
  match (d.dayNumber % 7).toNat with
  | 0 => "Sat"
  | 1 => "Sun"
  | 2 => "Mon"
  | 3 => "Tue"
  | 4 => "Wed"
  | 5 => "Thu"
  | _ => "Fri"

end Date

/-! ## Instants -/

/-- A point in time: a day of UTC, the second of that day, and the nanoseconds
past it. A leap second counts its nanoseconds on from the second before it. -/
structure Instant where
  date : Date
  second : Nat
  nanos : Nat
  second_lt : second < 86400
  nanos_lt : nanos < 2000000000
  leap_at_end : 1000000000 ≤ nanos → second % 60 = 59
  deriving DecidableEq

namespace Instant

def year (t : Instant) : Int := t.date.year

def hour (t : Instant) : Nat := t.second / 3600

def minute (t : Instant) : Nat := t.second / 60 % 60

/-- The instant lies in a leap second. -/
def isLeap (t : Instant) : Bool := 1000000000 ≤ t.nanos

/-- The numbers that place an instant, the weightiest first. -/
def rank (t : Instant) : List Int :=
  [t.date.year, t.date.month, t.date.day, t.second, t.nanos]

/-- Instants are ordered as they pass. -/
def before (a b : Instant) : Bool := a.rank < b.rank

/-- An instant is no later than another. -/
def notAfter (a b : Instant) : Bool := !b.before a

/-- The instant at a local date and time, the minutes of the local clock ahead
of UTC taken off. Minutes past either end of the day fall in a neighbouring day. -/
def ofLocal? (date : Date) (hour minute second nanos : Nat) (ahead : Int) : Option Instant :=
  if hour < 24 ∧ minute < 60 ∧ second ≤ 60 ∧ nanos < 1000000000 then
    let minutes : Int := hour * 60 + minute - ahead
    let day? :=
      if minutes < 0 then date.previous? else if minutes < 1440 then some date else date.next?
    let minuteOfDay := (minutes % 1440).toNat
    let (second, nanos) := if second = 60 then (59, nanos + 1000000000) else (second, nanos)
    day?.bind fun day =>
      if h : minuteOfDay * 60 + second < 86400 ∧ nanos < 2000000000 ∧
          (1000000000 ≤ nanos → (minuteOfDay * 60 + second) % 60 = 59) then
        some ⟨day, minuteOfDay * 60 + second, nanos, h.1, h.2.1, h.2.2⟩
      else none
  else none

end Instant

end HuntBoard
