-- How far the work on a puzzle is, and the words for it on the wire and to
-- people.
import HuntBoard.Text.Blank

namespace HuntBoard

inductive Status where
  | notStarted
  | working
  | abandoned
  | solved
  | backsolved
  | purchased
  deriving DecidableEq, Inhabited

namespace Status

def all : List Status := [notStarted, working, abandoned, solved, backsolved, purchased]

/-- The word on the wire; a puzzle nobody has begun has the empty one. -/
def wire : Status → String
  | notStarted => ""
  | working => "Working"
  | abandoned => "Abandoned"
  | solved => "Solved"
  | backsolved => "Backsolved"
  | purchased => "Purchased"

/-- The word for people. -/
def label : Status → String
  | notStarted => "Not Started"
  | s => s.wire

/-- The puzzle is done, so it has to have an answer. -/
def needsAnswer : Status → Bool
  | solved | backsolved | purchased => true
  | _ => false

/-- The words that people may type for a status, in lower case. -/
def spellings : Status → List String
  | notStarted => ["", "not started", "notstarted"]
  | working => ["working"]
  | abandoned => ["abandoned"]
  | solved => ["solved"]
  | backsolved => ["backsolved"]
  | purchased => ["purchased"]

/-- The status a typed word names, whatever its case and the blanks around it. -/
def ofWord? (s : String) : Option Status :=
  let word := String.ofList ((Text.trimBlanks s.toList).map Char.toLower)
  all.find? (fun st => st.spellings.contains word)

end Status

end HuntBoard
