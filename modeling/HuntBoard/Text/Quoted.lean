-- A text in double quotes, as diagnostics show it: nothing in it can be
-- mistaken for something else, and what a reader can see stays as it is.
import HuntBoard.Text.Digits
import HuntBoard.Text.LowerTable
import HuntBoard.Text.PrintableTable

namespace HuntBoard.Text

/-- A number in lower-case hexadecimal without leading zeros. -/
def hexText (n : Nat) : List Char := Nat.toDigits 16 n

/-- A code point by number, for a character that cannot be shown. -/
def quoteByNumber (c : Char) : List Char :=
  ['\\', 'u', '\x7b'] ++ hexText c.toNat ++ ['\x7d']

/-- A character shows as itself: it has a glyph and extends no other. -/
def showsAsItself (c : Char) : Bool :=
  if c.toNat < 0x7F then 0x20 ≤ c.toNat
  else !inRanges unprintableRanges c.toNat && !inRanges graphemeExtendRanges c.toNat

/-- One character inside the quotes. -/
def quoteChar (c : Char) : List Char :=
  if c = '\x00' then ['\\', '0']
  else if c = '\t' then ['\\', 't']
  else if c = '\n' then ['\\', 'n']
  else if c = '\r' then ['\\', 'r']
  else if c = '"' then ['\\', '"']
  else if c = '\\' then ['\\', '\\']
  else if showsAsItself c then [c]
  else quoteByNumber c

/-- A text in double quotes. -/
def quoted (s : String) : String :=
  String.ofList (['"'] ++ s.toList.flatMap quoteChar ++ ['"'])

end HuntBoard.Text
