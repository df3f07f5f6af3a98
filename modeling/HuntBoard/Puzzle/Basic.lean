-- Puzzles, and the changes to their fields that a client can ask for.
import HuntBoard.Ids
import HuntBoard.Instant.Stamp
import HuntBoard.Puzzle.Status

namespace HuntBoard

/-- A puzzle of the hunt. -/
structure Puzzle where
  id : PuzzleId
  name : String
  answer : String := ""
  round : RoundId
  status : Status := .notStarted
  note : String := ""
  location : String := ""
  puzzleUrl : String := ""
  spreadsheetId : String := ""
  discordChannel : String := ""
  isMeta : Bool := false
  voiceRoom : String := ""
  reminder : Option Instant := none
  deriving DecidableEq

/-- A puzzle is solved once it has an answer. -/
def Puzzle.isSolved (p : Puzzle) : Bool := !p.answer.isEmpty

/-- What a client has to say to create a puzzle. -/
structure NewPuzzle where
  name : String
  round : RoundId
  puzzleUrl : String
  deriving DecidableEq

/-- The name and value pairs of a form, in order. -/
abbrev Form := List (String × String)

namespace Form

/-- A form field, if it is set. -/
def field {α : Type} (name : String) (write : α → String) : Option α → Form
  | some v => [(name, write v)]
  | none => []

def boolText (b : Bool) : String := if b then "true" else "false"

end Form

def NewPuzzle.form (n : NewPuzzle) : Form :=
  [("name", n.name), ("round", n.round.text), ("puzzle_url", n.puzzleUrl)]

/-! ## Patches -/

/-- New values for some fields of a puzzle. The reminder is set to an instant,
set to nothing, or left alone. -/
structure PuzzlePatch where
  name : Option String := none
  answer : Option String := none
  round : Option RoundId := none
  status : Option Status := none
  note : Option String := none
  location : Option String := none
  puzzleUrl : Option String := none
  spreadsheetId : Option String := none
  discordChannel : Option String := none
  isMeta : Option Bool := none
  voiceRoom : Option String := none
  reminder : Option (Option Instant) := none
  deriving DecidableEq

namespace PuzzlePatch

/-- The patch that sets nothing. -/
def empty : PuzzlePatch := {}

def isEmpty (p : PuzzlePatch) : Bool := p == empty

/-- Set the status and nothing else. -/
def ofStatus (s : Status) : PuzzlePatch := { status := some s }

/-- Mark a puzzle solved with an answer. -/
def ofAnswer (answer : String) : PuzzlePatch := { answer := some answer, status := some .solved }

/-- The patch that sets every field to that of a puzzle. -/
def ofPuzzle (p : Puzzle) : PuzzlePatch where
  name := some p.name
  answer := some p.answer
  round := some p.round
  status := some p.status
  note := some p.note
  location := some p.location
  puzzleUrl := some p.puzzleUrl
  spreadsheetId := some p.spreadsheetId
  discordChannel := some p.discordChannel
  isMeta := some p.isMeta
  voiceRoom := some p.voiceRoom
  reminder := some p.reminder

/-- A puzzle with the set fields of the patch. -/
def apply (patch : PuzzlePatch) (p : Puzzle) : Puzzle where
  id := p.id
  name := patch.name.getD p.name
  answer := patch.answer.getD p.answer
  round := patch.round.getD p.round
  status := patch.status.getD p.status
  note := patch.note.getD p.note
  location := patch.location.getD p.location
  puzzleUrl := patch.puzzleUrl.getD p.puzzleUrl
  spreadsheetId := patch.spreadsheetId.getD p.spreadsheetId
  discordChannel := patch.discordChannel.getD p.discordChannel
  isMeta := patch.isMeta.getD p.isMeta
  voiceRoom := patch.voiceRoom.getD p.voiceRoom
  reminder := patch.reminder.getD p.reminder

/-- The puzzle that the patch makes on its own: it needs a name and a round. -/
def toPuzzle? (patch : PuzzlePatch) (id : PuzzleId) : Option Puzzle :=
  match patch.name, patch.round with
  | some name, some round => some (patch.apply { id, name, round })
  | _, _ => none

/-- The form of an update: the fields that are set, in order. -/
def form (patch : PuzzlePatch) : Form :=
  Form.field "name" id patch.name ++
  Form.field "answer" id patch.answer ++
  Form.field "round" RoundId.text patch.round ++
  Form.field "status" Status.wire patch.status ++
  Form.field "note" id patch.note ++
  Form.field "location" id patch.location ++
  Form.field "puzzle_url" id patch.puzzleUrl ++
  Form.field "spreadsheet_id" id patch.spreadsheetId ++
  Form.field "discord_channel" id patch.discordChannel ++
  Form.field "meta" Form.boolText patch.isMeta ++
  Form.field "voice_room" id patch.voiceRoom ++
  Form.field "reminder" (fun r => (r.map Instant.formStamp).getD "") patch.reminder

@[simp] theorem apply_id (patch : PuzzlePatch) (p : Puzzle) : (patch.apply p).id = p.id := rfl

@[simp] theorem ofPuzzle_apply (p q : Puzzle) (h : q.id = p.id) : (ofPuzzle p).apply q = p := by
  cases p
  cases q
  simp_all [ofPuzzle, apply]

end PuzzlePatch

end HuntBoard
