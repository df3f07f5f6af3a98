-- The tokens of the notation: names, texts, characters and numbers. Every
-- reader gives back what it read and the text behind it.
import HuntBoard.Ids
import HuntBoard.Text.Digits

namespace HuntBoard.Ron

/-! ## Names -/

def isNameStart (c : Char) : Bool := c.isAlpha || c = '_'

def isNameChar (c : Char) : Bool := c.isAlphanum || c = '_'

/-- Names behind `r#` may hold some more characters. -/
def isRawNameChar (c : Char) : Bool := isNameChar c || c = '.' || c = '+' || c = '-'

/-- A name; one that runs into a character that only raw names can hold is none,
and neither is the start of a raw text. -/
def plainName? (l : List Char) : Option (String × List Char) :=
  if l.head?.any isNameStart && !(l.dropWhile isNameChar).head?.any isRawNameChar then
    some (String.ofList (l.takeWhile isNameChar), l.dropWhile isNameChar)
  else none

def name? (l : List Char) : Option (String × List Char) :=
  match l with
  | 'r' :: '#' :: rest =>
    if rest.head?.any isRawNameChar then
      some (String.ofList (rest.takeWhile isRawNameChar), rest.dropWhile isRawNameChar)
    else none
  | 'r' :: '"' :: _ => none
  | l => plainName? l

/-! ## Texts -/

/-- Up to six hexadecimal digits in braces, as a number. -/
def braced? (l : List Char) : Option (Nat × List Char) :=
  match l with
  | '\x7b' :: rest =>
    let digits := rest.takeWhile (· ≠ '\x7d')
    match digits.length ≤ 6 && !digits.isEmpty, Text.hex? digits, rest.drop digits.length with
    | true, some n, '\x7d' :: rest => some (n, rest)
    | _, _, _ => none
  | _ => none

/-- A character behind a backslash. -/
def escape? (l : List Char) : Option (Char × List Char) :=
  match l with
  | '\'' :: rest => some ('\'', rest)
  | '"' :: rest => some ('"', rest)
  | '\\' :: rest => some ('\\', rest)
  | 'n' :: rest => some ('\n', rest)
  | 'r' :: rest => some ('\r', rest)
  | 't' :: rest => some ('\t', rest)
  | '0' :: rest => some (Char.ofNat 0, rest)
  | 'x' :: a :: b :: rest => (Text.hex? [a, b]).map fun n => (Char.ofNat n, rest)
  | 'u' :: rest =>
    match braced? rest with
    | some (n, rest) => if n.isValidChar then some (Char.ofNat n, rest) else none
    | none => none
  | _ => none

/-- The characters of a text up to its closing quote. Every round takes at
least one character. -/
def quotedWithin : Nat → List Char → Option (List Char × List Char)
  | 0, _ => none
  | fuel + 1, l =>
    match l with
    | '"' :: rest => some ([], rest)
    | '\\' :: rest => do
      let (c, rest) ← escape? rest
      let (taken, rest) ← quotedWithin fuel rest
      some (c :: taken, rest)
    | c :: rest => do
      let (taken, rest) ← quotedWithin fuel rest
      some (c :: taken, rest)
    | [] => none

/-- The characters up to a closing mark. -/
def upTo? (mark : List Char) : List Char → Option (List Char × List Char)
  | [] => none
  | c :: rest =>
    if mark.isPrefixOf (c :: rest) then some ([], (c :: rest).drop mark.length)
    else (upTo? mark rest).map fun (taken, rest) => (c :: taken, rest)

/-- A raw text: it ends at a quote with as many hashes behind it as it has in
front. -/
def rawText? (l : List Char) : Option (String × List Char) :=
  let hashes := l.takeWhile (· = '#')
  match l.drop hashes.length with
  | '"' :: rest => (upTo? ('"' :: hashes) rest).map fun (taken, rest) => (String.ofList taken, rest)
  | _ => none

def text? (l : List Char) : Option (String × List Char) :=
  match l with
  | '"' :: rest =>
    (quotedWithin (rest.length + 1) rest).map fun (taken, rest) => (String.ofList taken, rest)
  | 'r' :: rest => rawText? rest
  | _ => none

/-- The text behind a character in quotes. -/
def behindChar? (l : List Char) : Option (List Char) :=
  match l with
  | '\'' :: '\\' :: rest =>
    match escape? rest with
    | some (_, '\'' :: rest) => some rest
    | _ => none
  | '\'' :: c :: '\'' :: rest => if c = '\'' then none else some rest
  | _ => none

/-! ## Numbers -/

def isIntChar (c : Char) : Bool := (Text.hexDigit? c).isSome || c = '_'

def isFloatChar (c : Char) : Bool := c.isDigit || "eE.+-_".toList.contains c

/-- The value of digits in a base, one at least; underscores may stand behind the first. -/
def inBase? (base : Nat) (l : List Char) : Option Nat :=
  if l.isEmpty || l.head? = some '_' then none
  else
    ((l.filter (· ≠ '_')).mapM fun c => (Text.hexDigit? c).filter (· < base)).map (Text.numberOf base)

/-- The base that a number is written in, and its digits. -/
def base (l : List Char) : Nat × List Char :=
  match l with
  | '0' :: 'x' :: rest => (16, rest)
  | '0' :: 'b' :: rest => (2, rest)
  | '0' :: 'o' :: rest => (8, rest)
  | l => (10, l)

/-- The text behind a sign that may be there. -/
def unsigned (l : List Char) : List Char :=
  match l with
  | '+' :: rest | '-' :: rest => rest
  | l => l

/-- A number fits in 64 bits, with a sign or without. -/
def fits (sign : Option Char) (n : Nat) : Bool :=
  match sign with
  | some '-' => (int64? (-(n : Int))).isSome
  | some '+' => (int64? n).isSome
  | _ => (uint64? n).isSome

/-- The size of a whole number, which may have a sign. -/
def whole? (l : List Char) : Option (Nat × List Char) :=
  let (base, digits) := base (unsigned l)
  match inBase? base (digits.takeWhile isIntChar) with
  | some n => if fits l.head? n then some (n, digits.dropWhile isIntChar) else none
  | none => none

/-- A decimal fraction, perhaps with an exponent. -/
def isFloat (l : List Char) : Bool :=
  let whole := (unsigned l).takeWhile Char.isDigit
  let rest := (unsigned l).dropWhile Char.isDigit
  let (fraction, rest) := match rest with
    | '.' :: rest => (rest.takeWhile Char.isDigit, rest.dropWhile Char.isDigit)
    | rest => ([], rest)
  !(whole.isEmpty && fraction.isEmpty) &&
    match rest with
    | [] => true
    | e :: rest =>
      (e = 'e' || e = 'E') && !(unsigned rest).isEmpty && (unsigned rest).all Char.isDigit

/-- The text behind a number that is not a whole one. -/
def behindFloat? (l : List Char) : Option (List Char) :=
  if isFloat (l.takeWhile isFloatChar) then some (l.dropWhile isFloatChar) else none

/-- More of the text belongs to it when it is read as a fraction. -/
def looksLikeFloat (l : List Char) : Bool :=
  ((unsigned l).takeWhile isIntChar).length < ((unsigned l).takeWhile isFloatChar).length

end HuntBoard.Ron
