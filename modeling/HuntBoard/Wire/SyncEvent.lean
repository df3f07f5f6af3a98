-- The JSON form of a change: its place, its kind, and one entity as a whole
-- or by its id alone.
import HuntBoard.Json.Reader
import HuntBoard.SyncEvent
import HuntBoard.Wire.Entity

namespace HuntBoard

open Json (ofPuzzleId ofRoundId ofChangeId)

def ChangeKind.wire : ChangeKind → String
  | upsert => "upsert"
  | delete => "delete"

def ChangeKind.ofJson? : Json → Option ChangeKind :=
  Json.asChoice? ([upsert, delete].map fun k => (k.wire, k))

def EntityType.wire : EntityType → String
  | puzzle => "puzzle"
  | round => "round"

def EntityType.ofJson? : Json → Option EntityType :=
  Json.asChoice? ([puzzle, round].map fun k => (k.wire, k))

/-! ## Faults -/

/-- Why a change with a place and a kind is no change. -/
inductive EventFault where
  | noEntity (id : ChangeId)
  | twoEntities (id : ChangeId)
  | badPuzzle (id : ChangeId)
  | badRound (id : ChangeId)
  deriving DecidableEq

def EventFault.message : EventFault → String
  | noEntity c => "sync event " ++ c.text ++ " names neither a puzzle nor a round"
  | twoEntities c => "sync event " ++ c.text ++ " names both a puzzle and a round"
  | badPuzzle c => "sync event " ++ c.text ++ ": malformed puzzle"
  | badRound c => "sync event " ++ c.text ++ ": malformed round"

/-- Why a JSON text or value could not be read as what it should be. -/
inductive ReadFault where
  | shape
  | event (fault : EventFault)
  deriving DecidableEq

/-- A reading that can only fail by the shape of the value. -/
def orShape {α : Type} : Option α → Except ReadFault α
  | some a => .ok a
  | none => .error .shape

/-! ## Reading -/

/-- A change as it is written, its entity still a JSON value. -/
structure WrittenEvent where
  changeId : ChangeId
  kind : ChangeKind
  puzzle : Option Json := none
  round : Option Json := none
  /-- A reminder that is written beside the puzzle and not in it. -/
  reminderFix : Option Instant := none

namespace WrittenEvent

/-- A value that is kept to be read later. -/
def kept? (j : Json) : Option Json := if j.readable then some j.sorted else none

def ofJson? (j : Json) : Option WrittenEvent := do
  let fs ← j.record? ["change_id", "kind", "puzzle", "round", "reminder_fix"]
  let changeId ← fs.required "change_id" Json.asChangeId?
  let kind ← fs.required "kind" ChangeKind.ofJson?
  let puzzle ← fs.orElse "puzzle" none (Json.asOption? kept?)
  let round ← fs.orElse "round" none (Json.asOption? kept?)
  let reminderFix ← fs.orElse "reminder_fix" none Instant.reminder?
  some { changeId, kind, puzzle, round, reminderFix }

/-- The id of a deleted entity, which may be written in full. -/
def deleted? (j : Json) : Option Int64 := do
  let fs ← j.record? ["id"]
  fs.required "id" Json.asInt64?

/-- A puzzle with the reminder that is written beside it. -/
def fixReminder (fix : Option Instant) (p : Puzzle) : Puzzle :=
  match fix with
  | some t => { p with reminder := some t }
  | none => p

/-- The change that is meant: it needs exactly one entity, of the form its kind asks for. -/
def change (e : WrittenEvent) : Except EventFault Change :=
  match e.kind, e.puzzle, e.round with
  | _, none, none => .error (.noEntity e.changeId)
  | _, some _, some _ => .error (.twoEntities e.changeId)
  | .upsert, some p, none =>
    match Puzzle.ofJson? p with
    | some p => .ok (.upsertPuzzle (fixReminder e.reminderFix p))
    | none => .error (.badPuzzle e.changeId)
  | .upsert, none, some r =>
    match Round.ofJson? r with
    | some r => .ok (.upsertRound r)
    | none => .error (.badRound e.changeId)
  | .delete, some p, none =>
    match deleted? p with
    | some id => .ok (.deletePuzzle ⟨id⟩)
    | none => .error (.badPuzzle e.changeId)
  | .delete, none, some r =>
    match deleted? r with
    | some id => .ok (.deleteRound ⟨id⟩)
    | none => .error (.badRound e.changeId)

def event (e : WrittenEvent) : Except EventFault SyncEvent := e.change.map (⟨e.changeId, ·⟩)

end WrittenEvent

namespace SyncEvent

def ofJson (j : Json) : Except ReadFault SyncEvent := do
  let written ← orShape (WrittenEvent.ofJson? j)
  written.event.mapError .event

/-- A change from a text. A fault of the change itself comes before anything
wrong behind it. -/
def ofText (s : String) : Except ReadFault SyncEvent :=
  match Json.first? s with
  | none => .error .shape
  | some (j, rest) =>
    match ofJson j with
    | .error f => .error f
    | .ok e => if (Json.skipSpace rest).isEmpty then .ok e else .error .shape

/-! ## Writing -/

/-- The entity of a change as it is written: a deleted one by its id alone. -/
def entityMember : Change → String × Json
  | .upsertPuzzle p => ("puzzle", p.toJson)
  | .deletePuzzle id => ("puzzle", .obj [("id", ofPuzzleId id)])
  | .upsertRound r => ("round", r.toJson)
  | .deleteRound id => ("round", .obj [("id", ofRoundId id)])

def toJson (e : SyncEvent) : Json :=
  .obj [("change_id", ofChangeId e.changeId), ("kind", .str e.change.kind.wire), entityMember e.change]

end SyncEvent

end HuntBoard
