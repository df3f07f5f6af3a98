-- The written form of a tab's id: 32 hexadecimal digits in five groups.
import HuntBoard.Ids
import HuntBoard.Text.Digits

namespace HuntBoard.TabId

open HuntBoard.Text

/-! ## Writing -/

/-- The id as lower-case digits with hyphens. -/
def text (t : TabId) : String :=
  let ds := fixedHex 32 t.bits.toNat
  String.ofList (ds.take 8 ++ ['-'] ++ (ds.drop 8).take 4 ++ ['-'] ++ (ds.drop 12).take 4 ++ ['-'] ++
    (ds.drop 16).take 4 ++ ['-'] ++ ds.drop 20)

/-- The first eight digits. -/
def short (t : TabId) : String := String.ofList ((fixedHex 32 t.bits.toNat).take 8)

/-- The id as shown in diagnostics. -/
def tag (t : TabId) : String := "TabId(" ++ t.short ++ ")"

/-! ## Reading -/

/-- An id of 32 digits. -/
def ofDigits? (l : List Char) : Option TabId :=
  if l.length = 32 then (hex? l).map ofNat else none

/-- The digits of an id with its four hyphens in place. -/
def unhyphen? (l : List Char) : Option (List Char) :=
  if l.length = 36 ∧ l[8]? = some '-' ∧ l[13]? = some '-' ∧ l[18]? = some '-' ∧ l[23]? = some '-' then
    some (l.take 8 ++ (l.drop 9).take 4 ++ (l.drop 14).take 4 ++ (l.drop 19).take 4 ++ l.drop 24)
  else none

def ofHyphened? (l : List Char) : Option TabId := (unhyphen? l).bind ofDigits?

/-- The text between braces. -/
def inBraces? (l : List Char) : Option (List Char) :=
  if l.head? = some '\x7b' ∧ l.getLast? = some '\x7d' then some (l.drop 1).dropLast else none

/-- The text behind the name of the scheme for such ids. -/
def behindScheme? (l : List Char) : Option (List Char) :=
  if (l.take 9).map Char.toLower = "urn:uuid:".toList then some (l.drop 9) else none

/-- Read an id: bare digits, digits with hyphens, or these in braces or behind
their scheme; letters of either case. -/
def ofText? (s : String) : Option TabId :=
  let l := s.toList
  (ofDigits? l).orElse fun _ => (ofHyphened? l).orElse fun _ =>
    ((inBraces? l).bind ofHyphened?).orElse fun _ => (behindScheme? l).bind ofHyphened?

end HuntBoard.TabId
