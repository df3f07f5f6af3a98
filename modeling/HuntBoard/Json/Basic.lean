-- JSON values as they stand in a text: members in the order written, also
-- when a name comes twice, and whole numbers kept apart from all others.
import HuntBoard.KeyedMap

namespace HuntBoard

/-- A JSON value. A number is an `int` when it is written without fraction and
exponent and fits in 64 bits; any other number is a `decimal`. A stretch of
text that is well formed but stands for no value is `unreadable`: a text with
half of a surrogate pair, a number out of range, or a nest that is too deep. -/
inductive Json where
  | null
  | bool (b : Bool)
  | int (n : Int)
  | decimal (mantissa exponent : Int)
  | str (s : String)
  | arr (items : List Json)
  | obj (members : List (String × Json))
  | unreadable
  deriving Inhabited

namespace Json

/-! ## Values that can be kept -/

mutual

/-- Every part of the value can be read. -/
def readable : Json → Bool
  | .unreadable => false
  | .arr items => allReadable items
  | .obj members => membersReadable members
  | _ => true

def allReadable : List Json → Bool
  | [] => true
  | j :: rest => j.readable && allReadable rest

def membersReadable : List (String × Json) → Bool
  | [] => true
  | (_, j) :: rest => j.readable && membersReadable rest

end

/-! ## Values with their members in order -/

/-- Members in the order of their names; of two under one name the later stays. -/
def sortMembers (members : List (String × Json)) : List (String × Json) :=
  (KeyedMap.ofList members).toList

mutual

/-- The value with the members of every object sorted, each name once. -/
def sorted : Json → Json
  | .arr items => .arr (sortedItems items)
  | .obj members => .obj (sortMembers (sortedMembers members))
  | j => j

def sortedItems : List Json → List Json
  | [] => []
  | j :: rest => j.sorted :: sortedItems rest

def sortedMembers : List (String × Json) → List (String × Json)
  | [] => []
  | (k, j) :: rest => (k, j.sorted) :: sortedMembers rest

end

/-- The first value under a name in an object. -/
def get? (name : String) : Json → Option Json
  | .obj members => (members.find? (fun m => m.1 = name)).map (·.2)
  | _ => none

end Json

end HuntBoard
