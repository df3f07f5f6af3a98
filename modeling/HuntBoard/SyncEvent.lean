-- One change of the hunt as the server made it.
import HuntBoard.Round

namespace HuntBoard

/-- What a change did: put a whole entity in place, or take one away. -/
inductive Change where
  | upsertPuzzle (p : Puzzle)
  | deletePuzzle (id : PuzzleId)
  | upsertRound (r : Round)
  | deleteRound (id : RoundId)
  deriving DecidableEq

inductive ChangeKind where
  | upsert
  | delete
  deriving DecidableEq

inductive EntityType where
  | puzzle
  | round
  deriving DecidableEq

def Change.kind : Change → ChangeKind
  | upsertPuzzle _ | upsertRound _ => .upsert
  | deletePuzzle _ | deleteRound _ => .delete

def Change.entityType : Change → EntityType
  | upsertPuzzle _ | deletePuzzle _ => .puzzle
  | upsertRound _ | deleteRound _ => .round

/-- A change and its place in the server's history. -/
structure SyncEvent where
  changeId : ChangeId
  change : Change
  deriving DecidableEq

end HuntBoard
