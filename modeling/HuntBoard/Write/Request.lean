-- The writes a tab can ask the server for, as requests and as edits of what
-- the tab shows.
import HuntBoard.Overlay
import HuntBoard.SyncEvent

namespace HuntBoard

inductive WriteRequest where
  | createPuzzle (p : NewPuzzle)
  | updatePuzzle (id : PuzzleId) (patch : PuzzlePatch)
  | deletePuzzle (id : PuzzleId)
  | createRound (r : NewRound)
  | updateRound (id : RoundId) (patch : RoundPatch)
  | deleteRound (id : RoundId)
  deriving DecidableEq

inductive Method where
  | get
  | post
  | delete
  deriving DecidableEq

def Method.name : Method → String
  | get => "GET"
  | post => "POST"
  | delete => "DELETE"

namespace WriteRequest

def entityType : WriteRequest → EntityType
  | createPuzzle _ | updatePuzzle _ _ | deletePuzzle _ => .puzzle
  | createRound _ | updateRound _ _ | deleteRound _ => .round

/-- The path of a write behind that of the server. -/
def path : WriteRequest → String
  | createPuzzle _ => "/puzzles"
  | updatePuzzle id _ | deletePuzzle id => "/puzzles/" ++ id.text
  | createRound _ => "/rounds"
  | updateRound id _ | deleteRound id => "/rounds/" ++ id.text

def method : WriteRequest → Method
  | deletePuzzle _ | deleteRound _ => .delete
  | _ => .post

def isCreate : WriteRequest → Bool
  | createPuzzle _ | createRound _ => true
  | _ => false

def isUpdate : WriteRequest → Bool
  | updatePuzzle _ _ | updateRound _ _ => true
  | _ => false

/-- The form that is sent; a deletion sends none. -/
def form : WriteRequest → Form
  | createPuzzle p => p.form
  | updatePuzzle _ patch => patch.form
  | createRound r => r.form
  | updateRound _ patch => patch.form
  | deletePuzzle _ | deleteRound _ => []

/-- What a write will do, as far as that is known before the server answers:
the id of a new entity comes from the server. -/
def edit? : WriteRequest → Option Edit
  | updatePuzzle id patch => some (.patchPuzzle id patch)
  | deletePuzzle id => some (.deletePuzzle id)
  | updateRound id patch => some (.patchRound id patch)
  | deleteRound id => some (.deleteRound id)
  | createPuzzle _ | createRound _ => none

end WriteRequest

/-! ## What the server answers -/

/-- The entity that the server answers with. -/
inductive Entity where
  | puzzle (p : Puzzle)
  | round (r : Round)
  deriving DecidableEq

/-- A write that the server accepted. -/
structure WriteReply where
  changeId : ChangeId
  entity : Option Entity := none
  deriving DecidableEq

/-- What an accepted write did: a new entity is as the server says, all else is
as the write asked. -/
def WriteReply.edit? (request : WriteRequest) (reply : WriteReply) : Option Edit :=
  match request, reply.entity with
  | .createPuzzle _, some (.puzzle p) => some (.patchPuzzle p.id (.ofPuzzle p))
  | .createRound _, some (.round r) => some (.patchRound r.id (.ofRound r))
  | .createPuzzle _, _ | .createRound _, _ => none
  | request, _ => request.edit?

end HuntBoard
