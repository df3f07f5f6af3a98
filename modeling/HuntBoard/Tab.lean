-- One tab: its copy of the server's state, its own writes on top of it, and
-- the board made of both. One input goes in at a time; what the tab wants
-- done comes out, in order.
import HuntBoard.Board
import HuntBoard.Channel
import HuntBoard.Write.Reply

namespace HuntBoard

/-! ## Inputs and effects -/

/-- Why a tab can no longer be trusted and has to start over. -/
inductive ReloadReason where
  /-- The stream can never again be trusted to be without gaps. -/
  | dead
  /-- A change came that skips others. -/
  | drift (expected got : ChangeId)
  /-- The server does not accept the session any more. -/
  | unauthorized
  deriving DecidableEq

/-- What a tab tells whoever looks at it. -/
inductive TabEvent where
  | connection (s : LinkState)
  /-- Start over from a new snapshot; told at most once. -/
  | reload (r : ReloadReason)
  | settings (s : Settings)
  | presence (p : Presence)
  | users (u : Users)
  deriving DecidableEq

/-- A write on its way to the server, and the key of its edit in the overlay if
it is shown before the server answers. -/
structure OpenWrite where
  request : WriteRequest
  pending : Option WriteKey := none
  deriving DecidableEq

/-- Why a write came to nothing. -/
inductive WriteFault where
  | server (f : ServerFault)
  /-- The write was given up before the server answered. -/
  | aborted
  /-- The tab is closed. -/
  | closed
  deriving DecidableEq

def WriteFault.message? : WriteFault → Option String
  | server f => f.message?
  | aborted => some "write task ended before its request settled"
  | closed => some "tab closed"

inductive TabInput where
  /-- The hub speaks. -/
  | message (m : HubMessage)
  /-- The hub will never speak again. -/
  | hubLost
  /-- The user writes; the edit may be shown before the server answers. -/
  | write (request : WriteRequest) (optimistic : Bool)
  /-- A write has its outcome. -/
  | settled (w : OpenWrite) (outcome : Except WriteFault WriteReply)
  /-- The user became active or idle on a puzzle. -/
  | activity (subject : PuzzleId) (active : Bool)

inductive TabEffect where
  | tell (e : TabEvent)
  /-- Ask the server for a write. -/
  | ask (w : OpenWrite)
  /-- Answer whoever made the write that was settled. -/
  | answer (r : Except WriteFault ChangeId)
  /-- Report activity to the hub. -/
  | report (subject : PuzzleId) (active : Bool)

/-! ## State -/

structure Tab where
  replica : Replica
  overlay : Overlay := {}
  /-- The state of the stream as the hub told it. -/
  connection : LinkState := .disconnected
  /-- The tab has asked to start over. -/
  reloaded : Bool := false
  /-- The hub may still speak. -/
  attached : Bool := true
  /-- The board is out of date. -/
  dirty : Bool := true
  board : Board := {}

namespace Tab

def ofSnapshot (s : Snapshot) : Tab := { replica := .ofSnapshot s }

instance : Inhabited Tab := ⟨ofSnapshot .empty⟩

/-- A tab, and what it wants done to get there. -/
abbrev Outcome := Tab × List TabEffect

/-- Go on from an outcome. -/
def Outcome.andThen (o : Outcome) (f : Tab → Outcome) : Outcome :=
  ((f o.1).1, o.2 ++ (f o.1).2)

/-- The settings that hold. -/
def settings (t : Tab) : Settings := t.replica.settings

/-- Ask to start over, unless that was done. -/
def reload (t : Tab) (r : ReloadReason) : Outcome :=
  if t.reloaded then (t, []) else ({ t with reloaded := true }, [.tell (.reload r)])

def setConnection (t : Tab) (s : LinkState) : Outcome :=
  Outcome.andThen ({ t with connection := s }, [.tell (.connection s)]) fun t =>
    if s = .dead then t.reload .dead else (t, [])

/-! ## The hub speaks -/

/-- A write that comes back from the stream is no longer shown as the tab's own. -/
def echo (t : Tab) (c : ChangeId) : Tab :=
  let key := WriteKey.confirmed c
  match t.overlay.get? key with
  | some _ => { t with overlay := t.overlay.erase key, dirty := true }
  | none => t

/-- Take a change from the stream. -/
def sync (t : Tab) (e : SyncEvent) : Outcome :=
  let t := t.echo e.changeId
  match t.replica.apply e with
  | (replica, .changed) =>
    ({ t with replica, overlay := (t.overlay.pruneThrough replica.watermark).1, dirty := true }, [])
  | (_, .stale) => (t, [])
  | (_, .drift expected got) => t.reload (.drift expected got)

def hear (t : Tab) : HubMessage → Outcome
  | .sync e => t.sync e
  | .status s => t.setConnection s
  | .settings s => ({ t with replica := t.replica.setSettings s }, [.tell (.settings s)])
  | .presence p => (t, [.tell (.presence p)])
  | .users u => (t, [.tell (.users u)])

def hubLost (t : Tab) : Outcome := setConnection { t with attached := false } .disconnected

/-! ## The user writes -/

/-- Ask the server for a write, and show its edit at once if that is wanted and
the edit is known. -/
def write (t : Tab) (request : WriteRequest) (optimistic : Bool) : Outcome :=
  match if optimistic then request.edit? else none with
  | some e =>
    let (overlay, key) := t.overlay.addPending e
    ({ t with overlay, dirty := true }, [.ask ⟨request, some key⟩])
  | none => (t, [.ask ⟨request, none⟩])

/-- A write is no longer under way. -/
def forget (t : Tab) (w : OpenWrite) : Tab :=
  match w.pending with
  | some key => { t with overlay := t.overlay.erase key, dirty := true }
  | none => t

/-- Show what the server made of a write until the stream brings it back. -/
def confirm (t : Tab) (request : WriteRequest) (reply : WriteReply) : Tab :=
  match reply.edit? request with
  | some e =>
    match t.overlay.confirm reply.changeId e t.replica.watermark with
    | (overlay, true) => { t with overlay, dirty := true }
    | (_, false) => t
  | none => t

/-- A write has its outcome. -/
def settled (t : Tab) (w : OpenWrite) (outcome : Except WriteFault WriteReply) : Outcome :=
  let t := t.forget w
  match outcome with
  | .ok reply => (t.confirm w.request reply, [.answer (.ok reply.changeId)])
  | .error f =>
    Outcome.andThen (if f = .server .unauthorized then t.reload .unauthorized else (t, [])) fun t =>
      (t, [.answer (.error f)])

/-! ## Running -/

def step (t : Tab) : TabInput → Outcome
  | .message m => t.hear m
  | .hubLost => t.hubLost
  | .write request optimistic => t.write request optimistic
  | .settled w outcome => t.settled w outcome
  | .activity subject active => (t, [.report subject active])

/-- Take inputs in order. -/
def run (t : Tab) : List TabInput → Outcome
  | [] => (t, [])
  | i :: rest => (t.step i).andThen fun t => t.run rest

/-- What the tab is to show. -/
def shown (t : Tab) : Entities := t.replica.shown t.overlay

/-- Bring the board up to date. -/
def refresh (t : Tab) (now : Instant) : Tab :=
  if t.dirty then { t with board := .ofEntities t.shown now, dirty := false } else t

end Tab

end HuntBoard
