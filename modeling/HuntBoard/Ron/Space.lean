-- What stands between the tokens of the notation: blanks and comments.

namespace HuntBoard.Ron

def isSpace (c : Char) : Bool := c = ' ' || c = '\t' || c = '\n' || c = '\r'

/-- The text behind a block comment; such comments nest. -/
def behindBlock : Nat → List Char → Option (List Char)
  | level, '/' :: '*' :: rest => behindBlock (level + 1) rest
  | level, '*' :: '/' :: rest => if level = 0 then some rest else behindBlock (level - 1) rest
  | level, _ :: rest => behindBlock level rest
  | _, [] => none

/-- The text behind blanks and comments; none if a comment does not end. Every
round takes at least one character. -/
def skipWithin : Nat → List Char → Option (List Char)
  | 0, l => some l
  | fuel + 1, l =>
    match l.dropWhile isSpace with
    | '/' :: '/' :: rest => skipWithin fuel (rest.dropWhile (· ≠ '\n'))
    | '/' :: '*' :: rest => (behindBlock 0 rest).bind (skipWithin fuel)
    | '/' :: _ => none
    | l => some l

def skip (l : List Char) : Option (List Char) := skipWithin (l.length + 1) l

/-- The text behind a character and the space after it, if it comes next. -/
def after? (c : Char) (l : List Char) : Option (List Char) :=
  match l with
  | d :: rest => if d = c then skip rest else none
  | [] => none

/-- The text behind a comma that may be there, and whether it was. -/
def comma (l : List Char) : Option (Bool × List Char) := do
  let l ← skip l
  match l with
  | ',' :: rest => (skip rest).map (true, ·)
  | l => some (false, l)

end HuntBoard.Ron
