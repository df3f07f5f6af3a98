-- Lower-casing of whole texts by the Unicode rules: each character by its own
-- mapping, a capital dotted I as two characters, and a capital sigma by its
-- place in the word.
import HuntBoard.Text.LowerTable

namespace HuntBoard.Text

/-- The simple lower-case form of a character. -/
def lowerSimple (c : Char) : Char :=
  match lowerRuns.find? (fun r => r.1 ≤ c.toNat && c.toNat ≤ r.2.1) with
  | some (first, _, step, away) =>
    if (c.toNat - first) % step == 0 then Char.ofNat (c.toNat + away).toNat else c
  | none => c

/-- The lower-case form of a character outside of any word. -/
def lowerAlone (c : Char) : List Char :=
  if c.toNat < 0x80 then [c.toLower]
  else if c.toNat == 0x130 then ['i', Char.ofNat 0x307]
  else [lowerSimple c]

def isCased (c : Char) : Bool := inRanges casedRanges c.toNat

def isCaseIgnorable (c : Char) : Bool := inRanges caseIgnorableRanges c.toNat

/-- The first character that casing does not pass over is a cased one. -/
def meetsCased (l : List Char) : Bool :=
  match l.dropWhile isCaseIgnorable with
  | [] => false
  | c :: _ => isCased c

def capitalSigma : Char := Char.ofNat 0x3A3

/-- A capital sigma that ends its word has a lower-case form of its own. -/
def lowerSigma (before after : List Char) : Char :=
  if meetsCased before && !meetsCased after then Char.ofNat 0x3C2 else Char.ofNat 0x3C3

/-- Lower-case a list of characters; `before` holds those already passed, the
nearest first. -/
def lowerList (before : List Char) : List Char → List Char
  | [] => []
  | c :: rest =>
    if c = capitalSigma then lowerSigma before rest :: lowerList (c :: before) rest
    else lowerAlone c ++ lowerList (c :: before) rest

/-- The lower-case form of a text. -/
def lower (s : String) : String := String.ofList (lowerList [] s.toList)

end HuntBoard.Text
