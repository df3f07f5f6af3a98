-- Reading JSON texts. The reader keeps what it has read when a text breaks
-- off, for those who decide on an object before its end.
import HuntBoard.Json.Basic
import HuntBoard.Text.Digits

namespace HuntBoard.Json

open HuntBoard.Text

/-! ## Blanks and words -/

def isSpace (c : Char) : Bool := c = ' ' || c = '\n' || c = '\t' || c = '\r'

def skipSpace (l : List Char) : List Char := l.dropWhile isSpace

/-- The text behind a fixed word. -/
def word? : List Char → List Char → Option (List Char)
  | [], l => some l
  | _ :: _, [] => none
  | w :: ws, c :: l => if c = w then word? ws l else none

/-! ## Texts in quotes -/

/-- A character of a text, or half of a surrogate pair, which is none. -/
abbrev Piece := Option Char

/-- The number of four hexadecimal digits and the text behind them. -/
def fourHex? : List Char → Option (Nat × List Char)
  | a :: b :: c :: d :: rest => (hex? [a, b, c, d]).map (·, rest)
  | _ => none

/-- The character a backslash and a letter stand for. -/
def escaped? (c : Char) : Option Char :=
  match c with
  | '"' => some '"'
  | '\\' => some '\\'
  | '/' => some '/'
  | 'b' => some '\x08'
  | 'f' => some '\x0c'
  | 'n' => some '\n'
  | 'r' => some '\r'
  | 't' => some '\t'
  | _ => none

/-- The character at the front of a text whose backslash and `u` are taken off:
two escapes are one character when they are the halves of a surrogate pair. -/
def unicodePiece? (l : List Char) : Option (Piece × List Char) := do
  let (n, rest) ← fourHex? l
  if n < 0xD800 ∨ 0xE000 ≤ n then
    some (some (Char.ofNat n), rest)
  else if n < 0xDC00 then
    match rest with
    | '\\' :: 'u' :: more =>
      let (m, rest') ← fourHex? more
      if 0xDC00 ≤ m ∧ m < 0xE000 then
        some (some (Char.ofNat (0x10000 + (n - 0xD800) * 0x400 + (m - 0xDC00))), rest')
      else some (none, rest)
    | _ => some (none, rest)
  else some (none, rest)

/-- The pieces of a text up to its closing quote, and what comes after it. -/
def pieces? : Nat → List Char → Option (List Piece × List Char)
  | 0, _ => none
  | _ + 1, [] => none
  | fuel + 1, c :: rest =>
    if c = '"' then some ([], rest)
    else if c = '\\' then
      match rest with
      | [] => none
      | 'u' :: more => do
        let (p, rest) ← unicodePiece? more
        let (ps, rest) ← pieces? fuel rest
        some (p :: ps, rest)
      | e :: rest => do
        let p ← escaped? e
        let (ps, rest) ← pieces? fuel rest
        some (some p :: ps, rest)
    else if c.toNat < 0x20 then none
    else do
      let (ps, rest) ← pieces? fuel rest
      some (some c :: ps, rest)

/-- The text that pieces make, if none of them is half of a pair. -/
def textOf? (ps : List Piece) : Option String := (ps.mapM id).map String.ofList

/-- A text whose opening quote is taken off. -/
def quotedText? (l : List Char) : Option (Option String × List Char) :=
  (pieces? (l.length + 1) l).map fun (ps, rest) => (textOf? ps, rest)

/-! ## Numbers -/

/-- A decimal is too large for a 64 bit float: it is at or above 2¹⁰²⁴ - 2⁹⁷⁰. -/
def outOfRange (mantissa : Nat) (exponent : Int) : Bool :=
  let size : Int := (toString mantissa).length + exponent
  if mantissa = 0 || size < 300 then false
  else if size > 310 then true
  else if 0 ≤ exponent then mantissa * Nat.pow 10 exponent.toNat ≥ Nat.pow 2 1024 - Nat.pow 2 970
  else mantissa ≥ (Nat.pow 2 1024 - Nat.pow 2 970) * Nat.pow 10 (-exponent).toNat

/-- The digits of a fraction behind their point. -/
def fractionDigits? : List Char → Option (List Char × List Char)
  | '.' :: rest =>
    let ds := rest.takeWhile Char.isDigit
    if ds.isEmpty then none else some (ds, rest.dropWhile Char.isDigit)
  | l => some ([], l)

/-- A sign that may stand before the digits of an exponent. -/
def exponentSign : List Char → Int × List Char
  | '+' :: rest => (1, rest)
  | '-' :: rest => (-1, rest)
  | l => (1, l)

/-- The exponent of a number, if it is written. -/
def exponent? : List Char → Option (Option Int × List Char)
  | c :: rest =>
    if c = 'e' ∨ c = 'E' then
      let (sign, rest) := exponentSign rest
      let ds := rest.takeWhile Char.isDigit
      (decimal? ds).map fun n => (some (sign * n), rest.dropWhile Char.isDigit)
    else some (none, c :: rest)
  | [] => some (none, [])

/-- The value of a number from its parts. -/
def numberValue (negative : Bool) (whole fraction : List Char) (exponent : Option Int) : Json :=
  let mantissa := (decimal? (whole ++ fraction)).getD 0
  let signed : Int := if negative then -mantissa else mantissa
  if fraction.isEmpty && exponent.isNone && !(negative && mantissa == 0) &&
      (-9223372036854775808 ≤ signed && signed ≤ 18446744073709551615) then
    .int signed
  else
    let e := exponent.getD 0 - fraction.length
    if outOfRange mantissa e then .unreadable else .decimal signed e

/-- A number whose minus, if any, is taken off. -/
def number? (negative : Bool) (l : List Char) : Option (Json × List Char) := do
  let whole := l.takeWhile Char.isDigit
  let rest := l.dropWhile Char.isDigit
  if whole.isEmpty || (whole.head? == some '0' && whole.length > 1) then none
  else
    let (fraction, rest) ← fractionDigits? rest
    let (exponent, rest) ← exponent? rest
    some (numberValue negative whole fraction exponent, rest)

/-! ## Values -/

/-- How deep arrays and objects may nest. -/
def deepest : Nat := 127

/-- An object of its members; a name that is no text makes all of it unreadable. -/
def ofMembers (members : List (Option String × Json)) : Json :=
  match members.mapM (fun m => m.1.map (·, m.2)) with
  | some ms => .obj ms
  | none => .unreadable

/-- An array or object with `depth` others around it. -/
def nested (depth : Nat) (j : Json) : Json := if depth < deepest then j else .unreadable

mutual

/-- The value at the front of a text, which starts with no blank. -/
def value? : Nat → Nat → List Char → Option (Json × List Char)
  | 0, _, _ => none
  | _ + 1, _, [] => none
  | fuel + 1, depth, c :: rest =>
    if c = '"' then
      (quotedText? rest).map fun (s, rest) => ((s.map Json.str).getD .unreadable, rest)
    else if c = '\x7b' then
      match firstMember fuel (depth + 1) (skipSpace rest) with
      | (ms, some rest) => some (nested depth (ofMembers ms), rest)
      | (_, none) => none
    else if c = '[' then
      (firstItem? fuel (depth + 1) (skipSpace rest)).map fun (items, rest) =>
        (nested depth (.arr items), rest)
    else if c = 'n' then (word? ['u', 'l', 'l'] rest).map (Json.null, ·)
    else if c = 't' then (word? ['r', 'u', 'e'] rest).map (Json.bool true, ·)
    else if c = 'f' then (word? ['a', 'l', 's', 'e'] rest).map (Json.bool false, ·)
    else if c = '-' then number? true rest
    else number? false (c :: rest)

/-- The members of an object that has just been opened, and the text behind
the object if it ends. -/
def firstMember : Nat → Nat → List Char → List (Option String × Json) × Option (List Char)
  | 0, _, _ => ([], none)
  | fuel + 1, depth, l =>
    match l with
    | '\x7d' :: rest => ([], some rest)
    | l => members fuel depth l

/-- The members of an object from one that has to come. -/
def members : Nat → Nat → List Char → List (Option String × Json) × Option (List Char)
  | 0, _, _ => ([], none)
  | fuel + 1, depth, l =>
    match l with
    | '"' :: rest =>
      match quotedText? rest with
      | none => ([], none)
      | some (name, rest) =>
        match skipSpace rest with
        | ':' :: rest =>
          match value? fuel depth (skipSpace rest) with
          | none => ([], none)
          | some (j, rest) =>
            match skipSpace rest with
            | ',' :: rest =>
              let (ms, rest) := members fuel depth (skipSpace rest)
              ((name, j) :: ms, rest)
            | '\x7d' :: rest => ([(name, j)], some rest)
            | _ => ([(name, j)], none)
        | _ => ([], none)
    | _ => ([], none)

/-- The items of an array that has just been opened. -/
def firstItem? : Nat → Nat → List Char → Option (List Json × List Char)
  | 0, _, _ => none
  | fuel + 1, depth, l =>
    match l with
    | ']' :: rest => some ([], rest)
    | l => items? fuel depth l

/-- The items of an array from one that has to come. -/
def items? : Nat → Nat → List Char → Option (List Json × List Char)
  | 0, _, _ => none
  | fuel + 1, depth, l =>
    match value? fuel depth l with
    | none => none
    | some (j, rest) =>
      match skipSpace rest with
      | ',' :: rest => (items? fuel depth (skipSpace rest)).map fun (js, rest) => (j :: js, rest)
      | ']' :: rest => some ([j], rest)
      | _ => none

end

/-! ## Texts -/

/-- The value at the front of a text, and what comes after it. -/
def first? (s : String) : Option (Json × List Char) :=
  let l := skipSpace s.toList
  value? (3 * l.length + 3) 0 l

/-- The value of a text that holds one value and nothing else. -/
def ofText? (s : String) : Option Json :=
  match first? s with
  | some (j, rest) => if (skipSpace rest).isEmpty then some j else none
  | none => none

/-- The text is one JSON document that can be read in every part. -/
def isDocument (s : String) : Bool :=
  match ofText? s with
  | some j => j.readable
  | none => false

/-- The members of the object at the front of a text, up to where the text
breaks off, and what comes after the object if it ends. -/
def leadingMembers (s : String) : List (Option String × Json) × Option (List Char) :=
  match skipSpace s.toList with
  | '\x7b' :: rest => firstMember (3 * rest.length + 3) 1 (skipSpace rest)
  | _ => ([], none)

end HuntBoard.Json
