-- Reading a configuration. Whatever it does not name keeps its usual value,
-- and names that mean nothing are passed over.
import HuntBoard.Config.Basic
import HuntBoard.Ron.Reader

namespace HuntBoard

namespace Ron

/-! ## Values -/

def asText? : Ron → Option String
  | text s => some s
  | _ => none

/-- A number of 64 bits. -/
def asNumber? : Ron → Option Nat
  | number n => if n < UInt64.size then some n else none
  | _ => none

/-- A value that may be missing; a text can ask to have it written bare. -/
def asOption? {α : Type} (bare : Bool) (read : Ron → Option α) : Ron → Option (Option α)
  | word "None" => some none
  | tuple (some "Some") [v] => (read v).map some
  | v => if bare then (read v).map some else none

/-- The fields of a record that has this name or none. -/
def asFields? (name : String) (known : List String) (v : Ron) : Option (List (String × Ron)) := do
  let (given, fields) ← match v with
    | tuple given [] => some (given, [])
    | record given fields => some (given, fields)
    | _ => none
  let once := (fields.map (·.1)).filter known.contains
  if given.all (· = name) && once.eraseDups.length = once.length then some fields else none

/-- A field, or its usual value where it is not named. -/
def field? {α : Type} (fields : List (String × Ron)) (name : String) (usual : α)
    (read : Ron → Option α) : Option α :=
  match fields.lookup name with
  | some v => read v
  | none => some usual

end Ron

/-! ## Configurations -/

def HubConfig.ofRon? (v : Ron) : Option HubConfig := do
  let usual : HubConfig := {}
  let fields ← v.asFields? "AgentConfig"
    ["stream_url", "rewind_capacity", "backoff_floor_ms", "backoff_ceiling_ms", "connect_timeout_ms",
      "activity_flush_ms"]
  some {
    streamUrl := ← Ron.field? fields "stream_url" usual.streamUrl Ron.asText?
    recentCapacity := ← Ron.field? fields "rewind_capacity" usual.recentCapacity Ron.asNumber?
    backoffFloor := ← Ron.field? fields "backoff_floor_ms" usual.backoffFloor Ron.asNumber?
    backoffCeiling := ← Ron.field? fields "backoff_ceiling_ms" usual.backoffCeiling Ron.asNumber?
    connectTimeout := ← Ron.field? fields "connect_timeout_ms" usual.connectTimeout Ron.asNumber?
    flushPeriod := ← Ron.field? fields "activity_flush_ms" usual.flushPeriod Ron.asNumber? }

namespace SessionConfig

/-- Read a configuration; `bare` lets the cookie stand as a plain text. -/
def ofRon? (bare : Bool) (v : Ron) : Option SessionConfig := do
  let usual : SessionConfig := {}
  let fields ← v.asFields? "ClientConfig" ["api_base", "session_cookie", "http_timeout_ms", "agent"]
  some {
    serverBase := ← Ron.field? fields "api_base" usual.serverBase Ron.asText?
    cookie := ← Ron.field? fields "session_cookie" usual.cookie (Ron.asOption? bare Ron.asText?)
    requestTimeout := ← Ron.field? fields "http_timeout_ms" usual.requestTimeout Ron.asNumber?
    hub := ← Ron.field? fields "agent" usual.hub HubConfig.ofRon? }

/-- The configuration in a text. -/
def ofText? (s : String) : Option SessionConfig := do
  let (extensions, v) ← Ron.ofText? s
  ofRon? (extensions.contains "implicit_some") v

end SessionConfig

end HuntBoard
