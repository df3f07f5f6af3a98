-- Digits: reading a run of decimal or hexadecimal digits as a number, and
-- writing a number in a fixed count of digits.

namespace HuntBoard.Text

/-- The value of a decimal digit. -/
def digit? (c : Char) : Option Nat :=
  if '0' ≤ c ∧ c ≤ '9' then some (c.toNat - '0'.toNat) else none

/-- The value of a hexadecimal digit of either case. -/
def hexDigit? (c : Char) : Option Nat :=
  if '0' ≤ c ∧ c ≤ '9' then some (c.toNat - '0'.toNat)
  else if 'a' ≤ c ∧ c ≤ 'f' then some (c.toNat - 'a'.toNat + 10)
  else if 'A' ≤ c ∧ c ≤ 'F' then some (c.toNat - 'A'.toNat + 10)
  else none

/-- The number that digits of a base make, most significant first. -/
def numberOf (base : Nat) (digits : List Nat) : Nat :=
  digits.foldl (fun n d => n * base + d) 0

/-- A non-empty run of decimal digits as a number. -/
def decimal? (l : List Char) : Option Nat :=
  if l.isEmpty then none else (l.mapM digit?).map (numberOf 10)

/-- A run of hexadecimal digits as a number. -/
def hex? (l : List Char) : Option Nat := (l.mapM hexDigit?).map (numberOf 16)

def lowerHexDigit (n : Nat) : Char :=
  if n < 10 then Char.ofNat ('0'.toNat + n) else Char.ofNat ('a'.toNat + (n - 10))

def upperHexDigit (n : Nat) : Char :=
  if n < 10 then Char.ofNat ('0'.toNat + n) else Char.ofNat ('A'.toNat + (n - 10))

/-- The last `count` digits of a number in a base, most significant first. -/
def fixedDigits (base : Nat) : Nat → Nat → List Nat
  | 0, _ => []
  | count + 1, n => fixedDigits base count (n / base) ++ [n % base]

/-- A number in exactly `count` lower-case hexadecimal digits. -/
def fixedHex (count n : Nat) : List Char := (fixedDigits 16 count n).map lowerHexDigit

/-- A number in exactly `count` decimal digits. -/
def fixedDecimal (count n : Nat) : List Char := (fixedDigits 10 count n).map lowerHexDigit

/-- A number in as many decimal digits as it needs, and no fewer than `count`. -/
def paddedDecimal (count n : Nat) : List Char :=
  let digits := (toString n).toList
  List.replicate (count - digits.length) '0' ++ digits

end HuntBoard.Text
