-- The state of the hunt as the server has it at one change.
import HuntBoard.Round
import HuntBoard.Settings

namespace HuntBoard

structure Snapshot where
  /-- The last change that the snapshot holds. -/
  changeId : ChangeId
  puzzles : List Puzzle := []
  rounds : List Round := []
  settings : Settings := {}
  /-- The first event after the snapshot may skip ahead, with nothing lost. -/
  knownGap : Bool := false
  deriving DecidableEq

/-- The snapshot of a hunt with nothing in it. -/
def Snapshot.empty : Snapshot := { changeId := ⟨0⟩ }

end HuntBoard
