-- The loose reading of instants: numbers may be short, blanks may stand
-- between the parts, and the zone may lack its colon or be the letters UTC.
import HuntBoard.Instant.Stamp
import HuntBoard.Text.Blank

namespace HuntBoard.Instant

open HuntBoard.Text

def skipBlanks (l : List Char) : List Char := l.dropWhile isBlank

/-- A number of one to `most` digits, behind any blanks. -/
def number? (most : Nat) (l : List Char) : Option (Nat × List Char) :=
  let l := skipBlanks l
  let digits := (l.takeWhile Char.isDigit).take most
  (decimal? digits).map (·, l.drop digits.length)

/-- A year: four digits at most, or with a sign as many as there are. -/
def looseYear? (l : List Char) : Option (Int × List Char) :=
  match skipBlanks l with
  | '-' :: rest => (signed rest).map fun (n, l) => (-(n : Int), l)
  | '+' :: rest => (signed rest).map fun (n, l) => ((n : Int), l)
  | l => (number? 4 l).map fun (n, l) => ((n : Int), l)
where
  signed (l : List Char) : Option (Nat × List Char) :=
    let digits := l.takeWhile Char.isDigit
    (decimal? digits).map (·, l.drop digits.length)

/-- The text behind a mark that blanks may precede. -/
def mark? (c : Char) (l : List Char) : Option (List Char) := char? c (skipBlanks l)

/-- What may stand between the hours and the minutes of a zone. -/
def looseGap (l : List Char) : Option (List Char) :=
  some (l.dropWhile (fun c => c = ':' || isBlank c))

/-- A zone, or the letters UTC in any case. -/
def looseZone? (l : List Char) : Option (Int × List Char) :=
  if (l.take 3).map Char.toLower = ['u', 't', 'c'] then some (0, l.drop 3) else zone? looseGap l

/-- Read a loosely written instant. -/
def ofLooseText? (l : List Char) : Option Instant := do
  let (year, l) ← looseYear? l
  let l ← mark? '-' l
  let (month, l) ← number? 2 l
  let l ← mark? '-' l
  let (day, l) ← number? 2 l
  let l ← dateEnd? l
  let (hour, l) ← number? 2 l
  let l ← mark? ':' l
  let (minute, l) ← number? 2 l
  let l ← mark? ':' l
  let (second, l) ← number? 2 l
  let (nanos, l) ← nanos? l
  let (ahead, l) ← looseZone? (skipBlanks l)
  if (skipBlanks l).isEmpty then
    let date ← Date.of? year month day
    ofLocal? date hour minute second nanos ahead
  else none

def ofLoose? (s : String) : Option Instant := ofLooseText? s.toList

end HuntBoard.Instant
