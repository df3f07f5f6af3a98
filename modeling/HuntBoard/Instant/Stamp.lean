-- Written instants: the printed form, with as few digits of a second as
-- lose nothing, and the strict reading of it.
import HuntBoard.Instant.Basic
import HuntBoard.Text.Digits

namespace HuntBoard.Instant

open HuntBoard.Text

/-! ## Writing -/

/-- A year in four digits, or with a sign when it has none in four digits. -/
def yearText (y : Int) : List Char :=
  if 0 ≤ y ∧ y ≤ 9999 then fixedDecimal 4 y.toNat
  else (if y < 0 then '-' else '+') :: paddedDecimal 4 y.natAbs

/-- The fraction of a second in 0, 3, 6 or 9 digits. -/
def fractionText (nanos : Nat) : List Char :=
  if nanos = 0 then []
  else if nanos % 1000000 = 0 then '.' :: fixedDecimal 3 (nanos / 1000000)
  else if nanos % 1000 = 0 then '.' :: fixedDecimal 6 (nanos / 1000)
  else '.' :: fixedDecimal 9 nanos

/-- The characters of an instant, without the zone. -/
def stampText (t : Instant) : List Char :=
  let seconds := t.second % 60 + if t.isLeap then 1 else 0
  yearText t.year ++ ['-'] ++ fixedDecimal 2 t.date.month ++ ['-'] ++ fixedDecimal 2 t.date.day ++
    ['T'] ++ fixedDecimal 2 t.hour ++ [':'] ++ fixedDecimal 2 t.minute ++ [':'] ++
    fixedDecimal 2 seconds ++ fractionText (t.nanos % 1000000000)

/-- The instant as messages carry it. -/
def stamp (t : Instant) : String := String.ofList (t.stampText ++ ['Z'])

/-- The instant as forms carry it. -/
def formStamp (t : Instant) : String := String.ofList (t.stampText ++ ['+', '0', '0', ':', '0', '0'])

/-! ## Strict reading -/

/-- The number in exactly `count` digits at the front of a text. -/
def digits? (count : Nat) (l : List Char) : Option (Nat × List Char) :=
  if count ≤ l.length then (decimal? (l.take count)).map (·, l.drop count) else none

/-- The text behind a fixed character. -/
def char? (c : Char) : List Char → Option (List Char)
  | [] => none
  | d :: rest => if d = c then some rest else none

/-- The text behind the mark between a date and a time of day. -/
def dateEnd? : List Char → Option (List Char)
  | 'T' :: rest | 't' :: rest | ' ' :: rest => some rest
  | _ => none

/-- The nanoseconds of a fraction of a second: up to nine digits count, more
are passed over. -/
def fraction? (l : List Char) : Option (Nat × List Char) :=
  let digits := l.takeWhile Char.isDigit
  let rest := l.dropWhile Char.isDigit
  let counted := digits.take 9
  (decimal? counted).map fun n => (n * Nat.pow 10 (9 - counted.length), rest)

/-- The nanoseconds at the front of a text, when a point starts them. -/
def nanos? : List Char → Option (Nat × List Char)
  | '.' :: rest => fraction? rest
  | l => some (0, l)

/-- A sign in front of a zone's distance from UTC. -/
def zoneSign? : List Char → Option (Int × List Char)
  | [] => none
  | c :: rest =>
    if c = '+' then some (1, rest)
    else if c = '-' ∨ c = Char.ofNat 0x2212 then some (-1, rest)
    else none

/-- The minutes of a zone ahead of UTC: `Z`, or hours and minutes with a sign;
`gap` takes what stands between hours and minutes. -/
def zone? (gap : List Char → Option (List Char)) : List Char → Option (Int × List Char)
  | 'Z' :: rest | 'z' :: rest => some (0, rest)
  | l => do
    let (sign, l) ← zoneSign? l
    let (hours, l) ← digits? 2 l
    let l ← gap l
    let (minutes, l) ← digits? 2 l
    if hours ≤ 23 ∧ minutes ≤ 59 then some (sign * (hours * 60 + minutes), l) else none

/-- Read a strictly written instant: four digits of a year, two of all else. -/
def ofStampText? (l : List Char) : Option Instant := do
  let (year, l) ← digits? 4 l
  let l ← char? '-' l
  let (month, l) ← digits? 2 l
  let l ← char? '-' l
  let (day, l) ← digits? 2 l
  let l ← dateEnd? l
  let (hour, l) ← digits? 2 l
  let l ← char? ':' l
  let (minute, l) ← digits? 2 l
  let l ← char? ':' l
  let (second, l) ← digits? 2 l
  let (nanos, l) ← nanos? l
  let (ahead, l) ← zone? (char? ':') l
  if l.isEmpty then
    let date ← Date.of? year month day
    ofLocal? date hour minute second nanos ahead
  else none

def ofStamp? (s : String) : Option Instant := ofStampText? s.toList

end HuntBoard.Instant
