-- Blank characters, in the sense of the Unicode White_Space property, and
-- the text without the blanks at its ends.

namespace HuntBoard.Text

/-- The characters with the White_Space property. -/
def isBlank (c : Char) : Bool :=
  let n := c.toNat
  (9 ≤ n && n ≤ 13) || n == 0x20 || n == 0x85 || n == 0xA0 || n == 0x1680 ||
    (0x2000 ≤ n && n ≤ 0x200A) || n == 0x2028 || n == 0x2029 || n == 0x202F || n == 0x205F ||
    n == 0x3000

/-- A list without the blanks at both of its ends. -/
def trimBlanks (l : List Char) : List Char :=
  ((l.dropWhile isBlank).reverse.dropWhile isBlank).reverse

/-- A text without the blanks at both of its ends. -/
def trim (s : String) : String := String.ofList (trimBlanks s.toList)

/-- A text of nothing but blanks. -/
def isAllBlank (s : String) : Bool := s.toList.all isBlank

end HuntBoard.Text
