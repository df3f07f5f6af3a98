-- Hosts of addresses: names, and numbers of the two internet protocols.
import HuntBoard.Text.Digits
import HuntBoard.Text.Lower
import HuntBoard.Text.Pieces
import HuntBoard.Text.Punycode
import HuntBoard.Url.Percent

namespace HuntBoard

inductive Host where
  | name (s : String)
  /-- A number of 32 bits. -/
  | v4 (n : Nat)
  /-- Eight numbers of 16 bits. -/
  | v6 (l : List Nat)
  deriving DecidableEq

namespace Host

/-! ## Numbers of 32 bits -/

/-- A number in decimal, or behind a zero in octal, or behind `0x` in hexadecimal. -/
def number? (l : List Char) : Option Nat :=
  match l with
  | [] => none
  | ['0'] => some 0
  | '0' :: x :: digits =>
    if x = 'x' ∨ x = 'X' then Text.hex? digits
    else ((x :: digits).mapM octal?).map (Text.numberOf 8)
  | l => Text.decimal? l
where
  octal? (c : Char) : Option Nat := (Text.digit? c).filter (· < 8)

/-- The parts of a name, without the empty one that a dot at the end makes. -/
def parts (l : List Char) : List (List Char) :=
  let ps := Text.pieces (· == '.') l
  if 1 < ps.length ∧ ps.getLast? = some [] then ps.dropLast else ps

/-- A name whose last part is a number has to be a whole address of numbers. -/
def endsInNumber (l : List Char) : Bool :=
  match (parts l).getLast? with
  | some last => (!last.isEmpty && last.all Char.isDigit) || (number? last).isSome
  | none => false

/-- All numbers but the last are bytes; the last one fills the bytes that are left. -/
def v4? (l : List Char) : Option Nat := do
  let ps := parts l
  let ns ← ps.mapM number?
  let last ← ns.getLast?
  let bytes := ns.dropLast
  if ns.length ≤ 4 ∧ bytes.all (· < 256) ∧ last < Nat.pow 256 (4 - bytes.length) then
    some (Text.numberOf 256 bytes * Nat.pow 256 (4 - bytes.length) + last)
  else none

def v4Text (n : Nat) : List Char :=
  Text.joined '.' ((Text.fixedDigits 256 4 n).map fun b => (toString b).toList)

/-! ## Numbers of 128 bits -/

/-- One to four hexadecimal digits. -/
def group? (l : List Char) : Option Nat :=
  if l.isEmpty ∨ 4 < l.length then none else Text.hex? l

/-- A byte in decimal, without zeros in front. -/
def byte? (l : List Char) : Option Nat :=
  if l.head? = some '0' ∧ l ≠ ['0'] then none else (Text.decimal? l).filter (· < 256)

/-- Four bytes with dots between them, as two groups. -/
def dotted? (l : List Char) : Option (List Nat) :=
  match (Text.pieces (· == '.') l).mapM byte? with
  | some [a, b, c, d] => some [256 * a + b, 256 * c + d]
  | _ => none

/-- Groups with colons between them; the last may be written as four bytes. -/
def groups? : List (List Char) → Option (List Nat)
  | [] => some []
  | [p] => if p.contains '.' then dotted? p else (group? p).map ([·])
  | p :: ps => do
    let n ← group? p
    let ns ← groups? ps
    some (n :: ns)

def groupsOf? (l : List Char) : Option (List Nat) :=
  if l.isEmpty then some [] else groups? (Text.pieces (· == ':') l)

/-- The texts before and behind the first two colons in a row. -/
def atGap? : List Char → Option (List Char × List Char)
  | ':' :: ':' :: rest => some ([], rest)
  | c :: rest => (atGap? rest).map fun (a, b) => (c :: a, b)
  | [] => none

def v6? (l : List Char) : Option (List Nat) :=
  match atGap? l with
  | none => (groupsOf? l).filter (·.length = 8)
  | some (before, behind) => do
    let a ← groupsOf? before
    let b ← groupsOf? behind
    if before.contains '.' ∨ 7 < a.length + b.length then none
    else some (a ++ List.replicate (8 - a.length - b.length) 0 ++ b)

/-- How many zeros a list begins with. -/
def zeros (l : List Nat) : Nat := (l.takeWhile (· = 0)).length

/-- The place and the length of the longest run of zeros, the first of these. -/
def longestZeros : List Nat → Nat × Nat
  | [] => (0, 0)
  | n :: rest =>
    let (place, length) := longestZeros rest
    if length ≤ zeros (n :: rest) then (0, zeros (n :: rest)) else (place + 1, length)

def hexText (n : Nat) : List Char := Nat.toDigits 16 n

/-- Two or more zeros in a row are left out, once. -/
def v6Text (l : List Nat) : List Char :=
  let (place, length) := longestZeros l
  let text (l : List Nat) : List Char := Text.joined ':' (l.map hexText)
  if length < 2 then text l
  else text (l.take place) ++ [':', ':'] ++ text (l.drop (place + length))

/-! ## Names -/

def isAscii (c : Char) : Bool := c.toNat < 128

/-- The characters that no name can hold. -/
def isForbidden (c : Char) : Bool :=
  c.toNat = 0 || "\t\n\r #/:<>?@[\\]^|".toList.contains c

/-- The characters that no name of the internet can hold. -/
def isForbiddenInDomain (c : Char) : Bool :=
  isForbidden c || c.toNat < 0x20 || c = '%' || c.toNat = 0x7F

/-- A label of a name in ASCII. -/
def asciiLabel (l : List Char) : List Char :=
  if l.all isAscii then l else "xn--".toList ++ Text.Punycode.encode l

/-- A name in lower case and in ASCII. Of the Unicode rules for names on the internet this is the
lower case alone: characters that these rules replace by others or leave out stay as they are, and a
label that is in Punycode already is taken as it is, though it may be the code of no label. -/
def asciiDomain (l : List Char) : List Char :=
  if l.all isAscii then l.map Char.toLower
  else Text.joined '.' ((Text.pieces (· == '.') (l.flatMap Text.lowerAlone)).map asciiLabel)

/-- The text that a name stands for. -/
def decoded? (l : List Char) : Option (List Char) :=
  if l.contains '%' then (String.fromUTF8? ⟨(Url.percentDecode l).toArray⟩).map String.toList
  else some l

/-- The host of a special address. -/
def ofSpecial? (l : List Char) : Option Host :=
  if l.head? = some '[' then
    if l.getLast? = some ']' ∧ 1 < l.length then (v6? (l.drop 1).dropLast).map v6 else none
  else do
    let l := asciiDomain (← decoded? l)
    if l.isEmpty ∨ l.any isForbiddenInDomain then none
    else if endsInNumber l then (v4? l).map v4
    else some (name (String.ofList l))

/-- The host of any other address. -/
def ofOpaque? (l : List Char) : Option Host :=
  if l.head? = some '[' then
    if l.getLast? = some ']' ∧ 1 < l.length then (v6? (l.drop 1).dropLast).map v6 else none
  else if l.any isForbidden then none
  else some (name (String.ofList (Url.percentEncode Url.keepsPrintable l)))

def chars : Host → List Char
  | name s => s.toList
  | v4 n => v4Text n
  | v6 l => ['['] ++ v6Text l ++ [']']

end Host

end HuntBoard
