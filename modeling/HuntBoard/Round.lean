-- Rounds, the named groups that puzzles belong to, and the changes to their
-- fields that a client can ask for.
import HuntBoard.Puzzle.Basic

namespace HuntBoard

structure Round where
  id : RoundId
  name : String
  emoji : String := ""
  hue : Int64 := 0
  /-- Special rounds stand before all others. -/
  special : Bool := false
  sort : Int64 := 0
  deriving DecidableEq

/-- What a client has to say to create a round. -/
structure NewRound where
  name : String
  emoji : String
  hue : Int64 := 0
  sort : Int64 := 0
  special : Bool := false
  deriving DecidableEq

def int64Text (n : Int64) : String := toString n.toInt

def NewRound.form (n : NewRound) : Form :=
  [("name", n.name), ("emoji", n.emoji), ("hue", int64Text n.hue), ("sort", int64Text n.sort),
    ("special", Form.boolText n.special)]

/-- New values for some fields of a round. -/
structure RoundPatch where
  name : Option String := none
  emoji : Option String := none
  hue : Option Int64 := none
  special : Option Bool := none
  sort : Option Int64 := none
  deriving DecidableEq

namespace RoundPatch

/-- The patch that sets nothing. -/
def empty : RoundPatch := {}

def isEmpty (p : RoundPatch) : Bool := p == empty

/-- The patch that sets every field to that of a round. -/
def ofRound (r : Round) : RoundPatch where
  name := some r.name
  emoji := some r.emoji
  hue := some r.hue
  special := some r.special
  sort := some r.sort

/-- A round with the set fields of the patch. -/
def apply (patch : RoundPatch) (r : Round) : Round where
  id := r.id
  name := patch.name.getD r.name
  emoji := patch.emoji.getD r.emoji
  hue := patch.hue.getD r.hue
  special := patch.special.getD r.special
  sort := patch.sort.getD r.sort

/-- The round that the patch makes on its own: it needs a name. -/
def toRound? (patch : RoundPatch) (id : RoundId) : Option Round :=
  patch.name.map fun name => patch.apply { id, name }

/-- The form of an update: the fields that are set, in order. -/
def form (patch : RoundPatch) : Form :=
  Form.field "name" id patch.name ++
  Form.field "emoji" id patch.emoji ++
  Form.field "hue" int64Text patch.hue ++
  Form.field "special" Form.boolText patch.special ++
  Form.field "sort" int64Text patch.sort

@[simp] theorem apply_id (patch : RoundPatch) (r : Round) : (patch.apply r).id = r.id := rfl

@[simp] theorem ofRound_apply (r q : Round) (h : q.id = r.id) : (ofRound r).apply q = r := by
  cases r
  cases q
  simp_all [ofRound, apply]

end RoundPatch

end HuntBoard
