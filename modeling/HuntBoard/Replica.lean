-- A tab's copy of the server's state, moved on by the server's changes in
-- their order and by nothing else.
import HuntBoard.Overlay
import HuntBoard.Snapshot
import HuntBoard.SyncEvent

namespace HuntBoard

/-- All puzzles and rounds, each under its own id. -/
structure Entities where
  puzzles : KeyedMap PuzzleId Puzzle := .empty
  rounds : KeyedMap RoundId Round := .empty
  deriving DecidableEq

namespace Entities

def ofLists (puzzles : List Puzzle) (rounds : List Round) : Entities where
  puzzles := .ofList (puzzles.map fun p => (p.id, p))
  rounds := .ofList (rounds.map fun r => (r.id, r))

/-- The state after a change. -/
def change (s : Entities) : Change → Entities
  | .upsertPuzzle p => { s with puzzles := s.puzzles.insert p.id p }
  | .deletePuzzle id => { s with puzzles := s.puzzles.erase id }
  | .upsertRound r => { s with rounds := s.rounds.insert r.id r }
  | .deleteRound id => { s with rounds := s.rounds.erase id }

/-- The state with an edit shown on it. A patch of what is not there shows only
when it can stand alone. -/
def edit (s : Entities) : Edit → Entities
  | .patchPuzzle id patch =>
    match s.puzzles.get? id with
    | some p => { s with puzzles := s.puzzles.insert id (patch.apply p) }
    | none =>
      match patch.toPuzzle? id with
      | some p => { s with puzzles := s.puzzles.insert id p }
      | none => s
  | .patchRound id patch =>
    match s.rounds.get? id with
    | some r => { s with rounds := s.rounds.insert id (patch.apply r) }
    | none =>
      match patch.toRound? id with
      | some r => { s with rounds := s.rounds.insert id r }
      | none => s
  | .deletePuzzle id => { s with puzzles := s.puzzles.erase id }
  | .deleteRound id => { s with rounds := s.rounds.erase id }

/-- The state with all writes of an overlay shown on it, in their order. -/
def under (s : Entities) (o : Overlay) : Entities := (o.toList.map (·.2)).foldl edit s

end Entities

/-! ## The replica -/

structure Replica where
  entities : Entities := {}
  /-- The last change that the copy holds. -/
  watermark : ChangeId := ⟨0⟩
  /-- The next change may skip ahead. -/
  gapAllowed : Bool := false
  settings : Settings := {}
  deriving DecidableEq

/-- What became of a change that was offered. -/
inductive Applied where
  | changed
  /-- The copy holds the change already. -/
  | stale
  /-- Changes before this one are missing. -/
  | drift (expected got : ChangeId)
  deriving DecidableEq

namespace Replica

def ofSnapshot (s : Snapshot) : Replica where
  entities := .ofLists s.puzzles s.rounds
  watermark := s.changeId
  gapAllowed := s.knownGap
  settings := s.settings

def setSettings (r : Replica) (s : Settings) : Replica := { r with settings := s }

/-- Take the next change. A change that is held already or that skips others is
refused, and the copy stays as it was. -/
def apply (r : Replica) (e : SyncEvent) : Replica × Applied :=
  if e.changeId ≤ r.watermark then (r, .stale)
  else if e.changeId ≠ r.watermark.next ∧ r.gapAllowed = false then
    (r, .drift r.watermark.next e.changeId)
  else
    ({ r with entities := r.entities.change e.change, watermark := e.changeId, gapAllowed := false },
      .changed)

/-- Take changes in order up to the first that skips others. -/
def applyAll (r : Replica) : List SyncEvent → Replica × Applied
  | [] => (r, .stale)
  | e :: rest =>
    match r.apply e with
    | (r, .drift expected got) => (r, .drift expected got)
    | (r, .stale) => r.applyAll rest
    | (r, .changed) =>
      match r.applyAll rest with
      | (r, .stale) => (r, .changed)
      | other => other

/-- The state to show: the copy with the tab's own writes on it. -/
def shown (r : Replica) (o : Overlay) : Entities := r.entities.under o

end Replica

end HuntBoard
