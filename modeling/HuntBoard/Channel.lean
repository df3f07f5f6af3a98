-- What tabs and the hub that serves them say to each other.
import HuntBoard.LiveMessage
import HuntBoard.TabId

namespace HuntBoard

/-! ## The state of the stream -/

/-- What tabs know of the stream: it is down, it is up, or it can never again be
trusted to be without gaps. -/
inductive LinkState where
  | disconnected
  | connected
  | dead
  deriving DecidableEq, Inhabited

namespace LinkState

def name : LinkState → String
  | disconnected => "disconnected"
  | connected => "connected"
  | dead => "dead"

def ofJson? : Json → Option LinkState :=
  Json.asChoice? ([disconnected, connected, dead].map fun s => (s.name, s))

end LinkState

/-! ## From a tab -/

inductive TabMessage where
  /-- A tab attaches, perhaps with an eye on one puzzle. -/
  | start (id : TabId) (scope : Option PuzzleId)
  /-- The user of a tab became active or idle on a puzzle. -/
  | activity (id : TabId) (subject : PuzzleId) (active : Bool)
  deriving DecidableEq

namespace TabMessage

def tabId : TabMessage → TabId
  | start id _ => id
  | activity id _ _ => id

def idOf? (j : Json) : Option TabId := j.asText?.bind TabId.ofText?

/-- The message of a kind, from its other fields. -/
def ofFields? (kind : String) (rest : Json) : Option TabMessage :=
  if kind = "start" then do
    let fs ← rest.record? ["id", "scope"]
    let id ← fs.required "id" idOf?
    let scope ← fs.orElse "scope" none (Json.asOption? Json.asPuzzleId?)
    some (.start id scope)
  else if kind = "activity" then do
    let fs ← rest.record? ["id", "subject", "active"]
    let id ← fs.required "id" idOf?
    let subject ← fs.required "subject" Json.asPuzzleId?
    let active ← fs.required "active" Json.asBool?
    some (.activity id subject active)
  else none

/-- The kind stands among the other fields, or in front of them in an array. -/
def ofJson? (j : Json) : Option TabMessage :=
  if j.readable then
    match j with
    | .obj members =>
      match members.partition (fun m => m.1 = "event") with
      | ([(_, .str kind)], rest) => ofFields? kind (.obj rest)
      | _ => none
    | .arr (.str kind :: rest) => ofFields? kind (.arr rest)
    | _ => none
  else none

def toJson : TabMessage → Json
  | start id scope =>
    .obj [("event", .str "start"), ("id", .str id.text),
      ("scope", Json.ofOption Json.ofPuzzleId scope)]
  | activity id subject active =>
    .obj [("active", .bool active), ("event", .str "activity"), ("id", .str id.text),
      ("subject", Json.ofPuzzleId subject)]

end TabMessage

/-! ## To a tab -/

inductive HubMessage where
  | sync (e : SyncEvent)
  | status (s : LinkState)
  | settings (s : Settings)
  | presence (p : Presence)
  | users (u : Users)
  deriving DecidableEq

namespace HubMessage

/-- The kinds of messages. -/
inductive Kind where
  | sync
  | status
  | settings
  | presence
  | users
  deriving DecidableEq

namespace Kind

def name : Kind → String
  | sync => "sync"
  | status => "status"
  | settings => "settings"
  | presence => "presence"
  | users => "users"

def ofJson? : Json → Option Kind :=
  Json.asChoice? ([sync, status, settings, presence, users].map fun k => (k.name, k))

end Kind

/-- A message of a kind from its content. -/
def ofContent (kind : Kind) (data : Json) : Except ReadFault HubMessage :=
  match kind with
  | .sync => (SyncEvent.ofJson data).map .sync
  | .status => orShape ((LinkState.ofJson? data).map .status)
  | .settings => orShape ((Settings.ofJson? data).map .settings)
  | .presence => orShape ((Presence.ofJson? data).map .presence)
  | .users => orShape ((Users.ofJson? data).map .users)

/-- Content that was read before its kind was known, as it is taken once the kind is there: where
it names a choice, an empty object will do for `null`. -/
def early : Kind → Json → Json
  | .status, j => j.overNull
  | .sync, .obj members => .obj (members.map fun (k, j) => (k, if k = "kind" then j.overNull else j))
  | .sync, .arr (changeId :: kind :: rest) => .arr (changeId :: kind.overNull :: rest)
  | _, j => j

/-- A message of a kind from content that was read before the kind was known:
the names of members stay texts then, so no puzzle can be named. -/
def ofEarlyContent (kind : Kind) (data : Json) : Except ReadFault HubMessage :=
  match kind, data with
  | .presence, .obj (_ :: _) => .error .shape
  | _, _ => ofContent kind (early kind data)

/-! ## Reading member by member -/

/-- Members of an object as far as it could be read, and whether it ended there. -/
structure Partly where
  members : List (Option String × Json)
  ended : Bool

/-- Nothing but unknown members is left, and the object ends. -/
def noMore (ended : Bool) : List (Option String × Json) → Bool
  | [] => ended
  | (some name, _) :: rest => name != "event" && name != "data" && noMore ended rest
  | (none, _) :: _ => false

/-- The message is fixed as soon as kind and content are there; what is wrong
with it comes before what is wrong behind it. -/
def finish (ended : Bool) (rest : List (Option String × Json)) (m : Except ReadFault HubMessage) :
    Except ReadFault HubMessage :=
  match m with
  | .error f => .error f
  | .ok m => if noMore ended rest then .ok m else .error .shape

/-- The content of a message whose kind is known. -/
def contentAfter (kind : Kind) (ended : Bool) : List (Option String × Json) → Except ReadFault HubMessage
  | [] => .error .shape
  | (none, _) :: _ => .error .shape
  | (some name, j) :: rest =>
    if name = "data" then finish ended rest (ofContent kind j)
    else if name = "event" then .error .shape
    else contentAfter kind ended rest

/-- The kind of a message whose content is known. -/
def kindAfter (data : Json) (ended : Bool) : List (Option String × Json) → Except ReadFault HubMessage
  | [] => .error .shape
  | (none, _) :: _ => .error .shape
  | (some name, j) :: rest =>
    if name = "event" then
      match Kind.ofJson? j with
      | some kind => finish ended rest (ofEarlyContent kind data)
      | none => .error .shape
    else if name = "data" then .error .shape
    else kindAfter data ended rest

/-- A message from the members of its object in the order they are written. -/
def ofMembers (ended : Bool) : List (Option String × Json) → Except ReadFault HubMessage
  | [] => .error .shape
  | (none, _) :: _ => .error .shape
  | (some name, j) :: rest =>
    if name = "event" then
      match Kind.ofJson? j with
      | some kind => contentAfter kind ended rest
      | none => .error .shape
    else if name = "data" then
      if j.readable then kindAfter j ended rest else .error .shape
    else ofMembers ended rest

/-- A message from a JSON value: an object, or an array of kind and content. -/
def ofJson : Json → Except ReadFault HubMessage
  | .obj members => ofMembers true (members.map fun (k, j) => (some k, j))
  | .arr [kind, data] =>
    match Kind.ofJson? kind with
    | some kind => ofContent kind data
    | none => .error .shape
  | _ => .error .shape

/-- A message from a text. -/
def ofText (s : String) : Except ReadFault HubMessage :=
  match Json.skipSpace s.toList with
  | '\x7b' :: _ =>
    let (members, rest) := Json.leadingMembers s
    ofMembers (rest.any fun r => (Json.skipSpace r).isEmpty) members
  | _ =>
    match Json.ofText? s with
    | some j => ofJson j
    | none => .error .shape

/-! ## Writing -/

def kind : HubMessage → Kind
  | sync _ => .sync
  | status _ => .status
  | settings _ => .settings
  | presence _ => .presence
  | users _ => .users

def content : HubMessage → Json
  | sync e => e.toJson
  | status s => .str s.name
  | settings s => s.toJson
  | presence p => p.toJson
  | users u => u.toJson

def toJson (m : HubMessage) : Json := .obj [("data", m.content), ("event", .str m.kind.name)]

end HubMessage

end HuntBoard
