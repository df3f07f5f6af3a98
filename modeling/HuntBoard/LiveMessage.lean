-- What the server's stream delivers, and the text frames that carry it.
import HuntBoard.Json.Printer
import HuntBoard.Json.Reader
import HuntBoard.Text.Quoted
import HuntBoard.Wire.SyncEvent

namespace HuntBoard

inductive LiveMessage where
  | sync (e : SyncEvent)
  | settings (s : Settings)
  | presence (p : Presence)
  | users (u : Users)
  deriving DecidableEq

namespace LiveMessage

def name : LiveMessage → String
  | sync _ => "sync"
  | settings _ => "settings"
  | presence _ => "presence"
  | users _ => "users"

/-! ## Frames -/

/-- Why a frame carries no message. -/
inductive Fault where
  | malformed (fault : ReadFault)
  | unknownEvent (name : String)
  deriving DecidableEq

namespace Fault

/-- The text of a fault, where this library knows one. -/
def message? : Fault → Option String
  | malformed (.event e) => some ("malformed frame: " ++ e.message)
  | malformed .shape => none
  | unknownEvent name => some ("unknown event type " ++ Text.quoted name)

end Fault

/-- The message with this name and this content. -/
def ofContent (name : String) (data : Json) : Except Fault LiveMessage :=
  if name = "sync" then
    match SyncEvent.ofJson data with
    | .ok e => .ok (.sync e)
    | .error f => .error (.malformed f)
  else if name = "settings" then part LiveMessage.settings (Settings.ofJson? data)
  else if name = "presence" then part LiveMessage.presence (Presence.ofJson? data)
  else if name = "users" then part LiveMessage.users (Users.ofJson? data)
  else .error (.unknownEvent name)
where
  part {α : Type} (make : α → LiveMessage) : Option α → Except Fault LiveMessage
    | some a => .ok (make a)
    | none => .error (.malformed .shape)

/-- The name and the content of a frame; a frame without content holds `null`. -/
def envelope? (text : String) : Option (String × Json) := do
  let j ← Json.ofText? text
  let fs ← j.record? ["event", "data"]
  let name ← fs.required "event" Json.asText?
  let data ← fs.orElse "data" .null WrittenEvent.kept?
  some (name, data)

/-- Read a text frame. -/
def decode (text : String) : Except Fault LiveMessage :=
  match envelope? text with
  | some (name, data) => ofContent name data
  | none => .error (.malformed .shape)

def content : LiveMessage → Json
  | sync e => e.toJson
  | settings s => s.toJson
  | presence p => p.toJson
  | users u => u.toJson

def toJson (m : LiveMessage) : Json := .obj [("data", m.content), ("event", .str m.name)]

/-- The text frame of a message. -/
def encode (m : LiveMessage) : String := m.toJson.text

end LiveMessage

end HuntBoard
