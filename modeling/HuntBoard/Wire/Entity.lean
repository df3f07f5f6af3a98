-- The JSON forms of puzzles, rounds, settings, hunters and snapshots.
import HuntBoard.Instant.Loose
import HuntBoard.Json.Record
import HuntBoard.Snapshot

namespace HuntBoard

open Json (ofInt64 ofPuzzleId ofRoundId ofChangeId ofOption)

/-! ## Instants -/

def Instant.toJson (t : Instant) : Json := .str t.stamp

/-- The year from which on a reminder counts as set. -/
def firstReminderYear : Int := 2000

/-- A reminder: nothing, a blank text, or a strictly written instant. One that
is too early stands for no reminder. -/
def Instant.reminder? : Json → Option (Option Instant)
  | .null => some none
  | .str s =>
    if Text.isAllBlank s then some none
    else (Instant.ofStamp? (Text.trim s)).map fun t =>
      if firstReminderYear ≤ t.year then some t else none
  | _ => none

/-- A loosely written instant. -/
def Instant.ofLooseJson? (j : Json) : Option Instant := j.asText?.bind Instant.ofLoose?

/-! ## Puzzles -/

namespace Status

def ofJson? : Json → Option Status := Json.asChoice? (all.map fun s => (s.wire, s))

def toJson (s : Status) : Json := .str s.wire

end Status

namespace Puzzle

def fieldNames : List String :=
  ["id", "name", "answer", "round", "status", "note", "location", "puzzle_url", "spreadsheet_id",
    "discord_channel", "meta", "voice_room", "reminder"]

/-- A puzzle has an id, a name and a round; all else may be missing. -/
def ofJson? (j : Json) : Option Puzzle := do
  let fs ← j.record? fieldNames
  let id ← fs.required "id" Json.asPuzzleId?
  let name ← fs.required "name" Json.asText?
  let answer ← fs.orElse "answer" "" Json.asText?
  let round ← fs.required "round" Json.asRoundId?
  let status ← fs.orElse "status" .notStarted Status.ofJson?
  let note ← fs.orElse "note" "" Json.asText?
  let location ← fs.orElse "location" "" Json.asText?
  let puzzleUrl ← fs.orElse "puzzle_url" "" Json.asText?
  let spreadsheetId ← fs.orElse "spreadsheet_id" "" Json.asText?
  let discordChannel ← fs.orElse "discord_channel" "" Json.asText?
  let isMeta ← fs.orElse "meta" false Json.asBool?
  let voiceRoom ← fs.orElse "voice_room" "" Json.asText?
  let reminder ← fs.orElse "reminder" none Instant.reminder?
  some { id, name, answer, round, status, note, location, puzzleUrl, spreadsheetId, discordChannel,
         isMeta, voiceRoom, reminder }

def toJson (p : Puzzle) : Json :=
  .obj [("answer", .str p.answer), ("discord_channel", .str p.discordChannel), ("id", ofPuzzleId p.id),
    ("location", .str p.location), ("meta", .bool p.isMeta), ("name", .str p.name),
    ("note", .str p.note), ("puzzle_url", .str p.puzzleUrl),
    ("reminder", ofOption Instant.toJson p.reminder), ("round", ofRoundId p.round),
    ("spreadsheet_id", .str p.spreadsheetId), ("status", p.status.toJson),
    ("voice_room", .str p.voiceRoom)]

end Puzzle

namespace NewPuzzle

def ofJson? (j : Json) : Option NewPuzzle := do
  let fs ← j.record? ["name", "round", "puzzle_url"]
  let name ← fs.required "name" Json.asText?
  let round ← fs.required "round" Json.asRoundId?
  let puzzleUrl ← fs.required "puzzle_url" Json.asText?
  some { name, round, puzzleUrl }

def toJson (n : NewPuzzle) : Json :=
  .obj [("name", .str n.name), ("puzzle_url", .str n.puzzleUrl), ("round", ofRoundId n.round)]

end NewPuzzle

/-! ## Rounds -/

namespace Round

def ofJson? (j : Json) : Option Round := do
  let fs ← j.record? ["id", "name", "emoji", "hue", "special", "sort"]
  let id ← fs.required "id" Json.asRoundId?
  let name ← fs.required "name" Json.asText?
  let emoji ← fs.orElse "emoji" "" Json.asText?
  let hue ← fs.orElse "hue" 0 Json.asInt64?
  let special ← fs.orElse "special" false Json.asBool?
  let sort ← fs.orElse "sort" 0 Json.asInt64?
  some { id, name, emoji, hue, special, sort }

def toJson (r : Round) : Json :=
  .obj [("emoji", .str r.emoji), ("hue", ofInt64 r.hue), ("id", ofRoundId r.id), ("name", .str r.name),
    ("sort", ofInt64 r.sort), ("special", .bool r.special)]

end Round

namespace NewRound

def ofJson? (j : Json) : Option NewRound := do
  let fs ← j.record? ["name", "emoji", "hue", "sort", "special"]
  let name ← fs.required "name" Json.asText?
  let emoji ← fs.required "emoji" Json.asText?
  let hue ← fs.orElse "hue" 0 Json.asInt64?
  let sort ← fs.orElse "sort" 0 Json.asInt64?
  let special ← fs.orElse "special" false Json.asBool?
  some { name, emoji, hue, sort, special }

def toJson (n : NewRound) : Json :=
  .obj [("emoji", .str n.emoji), ("hue", ofInt64 n.hue), ("name", .str n.name), ("sort", ofInt64 n.sort),
    ("special", .bool n.special)]

end NewRound

/-! ## The whole hunt -/

namespace Settings

def ofJson? (j : Json) : Option Settings := do
  let fs ← j.record? ["hunt_name", "hunt_url", "hunt_credentials", "logistics_url", "discord_guild",
    "hanging_out", "next_hunt", "voice_rooms"]
  let huntName ← fs.orElse "hunt_name" "" Json.asText?
  let huntUrl ← fs.orElse "hunt_url" "" Json.asText?
  let huntCredentials ← fs.orElse "hunt_credentials" "" Json.asText?
  let logisticsUrl ← fs.orElse "logistics_url" "" Json.asText?
  let discordGuild ← fs.orElse "discord_guild" "" Json.asText?
  let hangingOut ← fs.orElse "hanging_out" "" Json.asText?
  let nextHunt ← fs.orElse "next_hunt" none (Json.asOption? Instant.ofLooseJson?)
  let voiceRooms ← fs.orElse "voice_rooms" .empty (Json.asMap? some Json.asText?)
  some { huntName, huntUrl, huntCredentials, logisticsUrl, discordGuild, hangingOut, nextHunt, voiceRooms }

def toJson (s : Settings) : Json :=
  .obj [("discord_guild", .str s.discordGuild), ("hanging_out", .str s.hangingOut),
    ("hunt_credentials", .str s.huntCredentials), ("hunt_name", .str s.huntName),
    ("hunt_url", .str s.huntUrl), ("logistics_url", .str s.logisticsUrl),
    ("next_hunt", ofOption Instant.toJson s.nextHunt),
    ("voice_rooms", .obj (s.voiceRooms.toList.map fun (k, v) => (k, .str v)))]

end Settings

namespace Presence

/-- The users on a puzzle. -/
def usersOf? : Json → Option (KeyedMap String Bool) := Json.asMap? some Json.asBool?

def ofJson? : Json → Option Presence := Json.asMap? Json.puzzleKey? usersOf?

def usersJson (users : KeyedMap String Bool) : Json :=
  .obj (users.toList.map fun (k, b) => (k, .bool b))

/-- Puzzles come in the order of their numbers' digits, as names do. -/
def toJson (p : Presence) : Json :=
  .obj (Json.sortMembers (p.toList.map fun (k, users) => (k.text, usersJson users)))

end Presence

namespace Users

def ofJson? (j : Json) : Option Users := do
  let fs ← j.record? ["users", "replace"]
  let users ← fs.orElse "users" .empty (Json.asMap? some (Json.asPair? Json.asText? Json.asText?))
  let replace ← fs.orElse "replace" false Json.asBool?
  some { users, replace }

def toJson (u : Users) : Json :=
  .obj [("replace", .bool u.replace),
    ("users", .obj (u.users.toList.map fun (k, name, picture) => (k, .arr [.str name, .str picture])))]

end Users

namespace Snapshot

def ofJson? (j : Json) : Option Snapshot := do
  let fs ← j.record? ["change_id", "puzzles", "rounds", "settings", "known_gap"]
  let changeId ← fs.required "change_id" Json.asChangeId?
  let puzzles ← fs.orElse "puzzles" [] (Json.asList? Puzzle.ofJson?)
  let rounds ← fs.orElse "rounds" [] (Json.asList? Round.ofJson?)
  let settings ← fs.orElse "settings" {} Settings.ofJson?
  let knownGap ← fs.orElse "known_gap" false Json.asBool?
  some { changeId, puzzles, rounds, settings, knownGap }

def toJson (s : Snapshot) : Json :=
  .obj [("change_id", ofChangeId s.changeId), ("known_gap", .bool s.knownGap),
    ("puzzles", .arr (s.puzzles.map Puzzle.toJson)), ("rounds", .arr (s.rounds.map Round.toJson)),
    ("settings", s.settings.toJson)]

end Snapshot

end HuntBoard
