-- The JSON forms of patches and of edits: an object holds only the fields
-- that are set, so a reminder that is taken away is there as `null`.
import HuntBoard.Overlay
import HuntBoard.Wire.Entity

namespace HuntBoard

namespace Json

/-- A field of a patch: missing is not set, and one that is there has to read. -/
def setField? {α : Type} (j : Json) (name : String) (read : Json → Option α) : Option (Option α) :=
  match j.get? name with
  | none => some none
  | some v => (read v).map some

/-- A field of a patch as a member of an object. -/
def ofSetField {α : Type} (name : String) (write : α → Json) : Option α → List (String × Json)
  | some a => [(name, write a)]
  | none => []

end Json

open Json (setField? ofSetField)

/-! ## Patches -/

/-- A strictly written instant. -/
def Instant.ofJson? (j : Json) : Option Instant := j.asText?.bind Instant.ofStamp?

namespace PuzzlePatch

def ofJson? (j : Json) : Option PuzzlePatch := do
  let name ← setField? j "name" Json.asText?
  let answer ← setField? j "answer" Json.asText?
  let round ← setField? j "round" Json.asRoundId?
  let status ← setField? j "status" Status.ofJson?
  let note ← setField? j "note" Json.asText?
  let location ← setField? j "location" Json.asText?
  let puzzleUrl ← setField? j "puzzle_url" Json.asText?
  let spreadsheetId ← setField? j "spreadsheet_id" Json.asText?
  let discordChannel ← setField? j "discord_channel" Json.asText?
  let isMeta ← setField? j "meta" Json.asBool?
  let voiceRoom ← setField? j "voice_room" Json.asText?
  let reminder ← setField? j "reminder" (Json.asOption? Instant.ofJson?)
  some { name, answer, round, status, note, location, puzzleUrl, spreadsheetId, discordChannel,
         isMeta, voiceRoom, reminder }

def toJson (p : PuzzlePatch) : Json :=
  .obj (ofSetField "name" .str p.name ++ ofSetField "answer" .str p.answer ++
    ofSetField "round" Json.ofRoundId p.round ++ ofSetField "status" Status.toJson p.status ++
    ofSetField "note" .str p.note ++ ofSetField "location" .str p.location ++
    ofSetField "puzzle_url" .str p.puzzleUrl ++ ofSetField "spreadsheet_id" .str p.spreadsheetId ++
    ofSetField "discord_channel" .str p.discordChannel ++ ofSetField "meta" .bool p.isMeta ++
    ofSetField "voice_room" .str p.voiceRoom ++
    ofSetField "reminder" (Json.ofOption Instant.toJson) p.reminder)

end PuzzlePatch

namespace RoundPatch

def ofJson? (j : Json) : Option RoundPatch := do
  let name ← setField? j "name" Json.asText?
  let emoji ← setField? j "emoji" Json.asText?
  let hue ← setField? j "hue" Json.asInt64?
  let special ← setField? j "special" Json.asBool?
  let sort ← setField? j "sort" Json.asInt64?
  some { name, emoji, hue, special, sort }

def toJson (p : RoundPatch) : Json :=
  .obj (ofSetField "name" .str p.name ++ ofSetField "emoji" .str p.emoji ++
    ofSetField "hue" Json.ofInt64 p.hue ++ ofSetField "special" .bool p.special ++
    ofSetField "sort" Json.ofInt64 p.sort)

end RoundPatch

/-! ## Edits -/

namespace Edit

/-- The patch beside an id; without one nothing is set. -/
def patchIn (j : Json) : Json := (j.get? "patch").getD (.obj [])

def ofJson? (j : Json) : Option Edit :=
  match j.get? "puzzle", j.get? "round", j.get? "delete_puzzle", j.get? "delete_round" with
  | some id, _, _, _ => do
    let id ← id.asPuzzleId?
    let patch ← PuzzlePatch.ofJson? (patchIn j)
    some (.patchPuzzle id patch)
  | _, some id, _, _ => do
    let id ← id.asRoundId?
    let patch ← RoundPatch.ofJson? (patchIn j)
    some (.patchRound id patch)
  | _, _, some id, _ => id.asPuzzleId?.map .deletePuzzle
  | _, _, _, some id => id.asRoundId?.map .deleteRound
  | _, _, _, _ => none

def toJson : Edit → Json
  | patchPuzzle id patch => .obj [("puzzle", Json.ofPuzzleId id), ("patch", patch.toJson)]
  | patchRound id patch => .obj [("round", Json.ofRoundId id), ("patch", patch.toJson)]
  | deletePuzzle id => .obj [("delete_puzzle", Json.ofPuzzleId id)]
  | deleteRound id => .obj [("delete_round", Json.ofRoundId id)]

end Edit

end HuntBoard
