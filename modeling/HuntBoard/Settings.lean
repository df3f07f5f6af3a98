-- What holds for the whole hunt: its settings with the voice rooms, who looks
-- at which puzzle, and the directory of hunters.
import HuntBoard.Ids
import HuntBoard.Instant.Basic
import HuntBoard.KeyedMap

namespace HuntBoard

structure Settings where
  huntName : String := ""
  huntUrl : String := ""
  huntCredentials : String := ""
  logisticsUrl : String := ""
  discordGuild : String := ""
  hangingOut : String := ""
  nextHunt : Option Instant := none
  /-- The label of each voice channel, by the id of the channel. -/
  voiceRooms : KeyedMap String String := .empty
  deriving DecidableEq

instance : Inhabited Settings := ⟨{}⟩

/-! ## Voice rooms -/

/-- A voice channel with the emoji of its label taken off. -/
structure VoiceRoom where
  id : String
  name : String
  emoji : String
  deriving DecidableEq

namespace VoiceRoom

/-- The emoji of a room whose label ends in none. -/
def plainEmoji : String := "📻"

/-- A single character behind the last space of a label is the room's emoji. -/
def ofLabel (id label : String) : VoiceRoom :=
  match label.toList.reverse with
  | emoji :: ' ' :: name =>
    if emoji = ' ' then ⟨id, label, plainEmoji⟩
    else ⟨id, String.ofList name.reverse, String.singleton emoji⟩
  | _ => ⟨id, label, plainEmoji⟩

end VoiceRoom

/-- The voice rooms in the order of their channels. -/
def Settings.rooms (s : Settings) : List VoiceRoom :=
  s.voiceRooms.toList.map fun (id, label) => VoiceRoom.ofLabel id label

/-! ## Hunters -/

/-- Who looks at which puzzle: by puzzle, each user and whether they are active. -/
abbrev Presence := KeyedMap PuzzleId (KeyedMap String Bool)

/-- Hunters by id, each with a name and a picture; all there are, or those to add. -/
structure Users where
  users : KeyedMap String (String × String) := .empty
  replace : Bool := false
  deriving DecidableEq

end HuntBoard
