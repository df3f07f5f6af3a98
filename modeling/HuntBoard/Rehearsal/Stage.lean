-- A rehearsal: one hub and its tabs on a stage where the server answers as
-- told, the clock moves as told, and every lease and inbox can be looked at.
import HuntBoard.Hub
import HuntBoard.Lease
import HuntBoard.Tab

namespace HuntBoard.Rehearsal

/-! ## The server -/

/-- How the server takes an attempt to connect. -/
inductive Reception where
  | accept
  | refuse
  /-- The server never answers. -/
  | silence
  deriving DecidableEq

/-- The server's end of the newest connection. -/
structure Line where
  attempt : Attempt
  /-- What the server says reaches the hub. -/
  up : Bool := true
  /-- The server reads what the hub says. -/
  listening : Bool := true

structure Server where
  /-- How the next attempts are taken; after these, all are accepted. -/
  receptions : List Reception := []
  line : Option Line := none
  /-- What a tab that opens is answered. -/
  home : Except ServerFault Snapshot := .ok .empty
  /-- Tabs that open have to wait for the answer. -/
  gateClosed : Bool := false

/-! ## Tabs and others that speak to the hub -/

/-- A tab that waits for its snapshot. -/
structure Opening where
  label : String
  id : TabId
  inbox : Inbox
  lease : LeaseNumber

/-- How large the overlay of a tab is, if one can ask. -/
inductive Stats where
  | counts (watermark : ChangeId) (pending confirmed : Nat)
  | closed
  | dropped
  deriving DecidableEq

/-- What can be seen of a tab. -/
structure Sight where
  stats : Stats
  connection : LinkState
  settings : Settings
  board : Board

/-- A tab on the stage. -/
structure Guest where
  label : String
  id : TabId
  inbox : Inbox
  lease : LeaseNumber
  tab : Tab
  alive : Bool := true
  /-- Somebody can still use the tab. -/
  held : Bool := true
  /-- What the tab told since the last look. -/
  events : List TabEvent := []
  /-- What was seen at the last look. -/
  seen : Option Sight := none

namespace Guest

def stats (g : Guest) : Stats :=
  if g.held then
    if g.alive then
      .counts g.tab.replica.watermark g.tab.overlay.pendingCount g.tab.overlay.confirmedCount
    else .closed
  else .dropped

def sight (g : Guest) : Sight := ⟨g.stats, g.tab.connection, g.tab.settings, g.tab.board⟩

end Guest

/-- A channel to the hub that is driven by hand. -/
structure HandPort where
  name : String
  inbox : Inbox
  /-- The way back was not given to the hub yet. -/
  ownReply : Bool := true
  /-- The end of the channel was seen. -/
  endSeen : Bool := false

/-- A write that reached the server. -/
structure Call where
  tab : TabId
  name : String
  write : OpenWrite
  waiting : Bool := true

/-! ## News -/

/-- What a cue is answered. -/
inductive Reply where
  | flag (b : Bool)
  | hubClosed
  | tabClosed
  | leaseHeld (f : LeaseHeld)

/-- Why a tab did not open. -/
inductive OpenFault where
  | hubClosed
  | server (f : ServerFault)

/-- What happened since the last look. -/
structure News where
  reply : Option Reply := none
  opened : List (String × Except OpenFault Unit) := []
  /-- For every new attempt, the change it is to follow. -/
  connects : List (Option ChangeId) := []
  calls : List WriteRequest := []
  /-- What the hub sent to the server. -/
  sent : List ActivitySummary := []
  written : List (String × Except WriteFault ChangeId) := []

/-! ## The stage -/

structure Stage where
  config : HubConfig := {}
  /-- The instant that boards are made for. -/
  today : Instant
  /-- Milliseconds since the start. -/
  clock : Nat := 0
  /-- The hub, until it is shut down. -/
  hub : Option Hub := none
  queue : List HubInput := []
  /-- When the hub looks for news of activity. -/
  flushAt : Nat := 0
  /-- When the hub's delay is over. -/
  retryAt : Option Nat := none
  /-- An attempt that the server keeps waiting, and when it is given up. -/
  dialing : Option (Attempt × Nat) := none
  server : Server := {}
  leases : Leases := {}
  /-- The tabs whose end is waited for. -/
  watches : List (TabId × Leases.Wait) := []
  nextInbox : Inbox := 0
  nextTab : Nat := 0
  /-- Messages that were delivered but not read. -/
  letters : List Letter := []
  openings : List Opening := []
  guests : List Guest := []
  ports : List HandPort := []
  /-- Leases that are held by hand. -/
  hands : KeyedMap String LeaseNumber := .empty
  calls : List Call := []
  news : News := {}

namespace Stage

/-! ## Inboxes -/

/-- Somebody reads an inbox. -/
def isRead (s : Stage) (inbox : Inbox) : Bool :=
  s.openings.any (·.inbox = inbox) || s.guests.any (fun g => g.alive && g.inbox = inbox) ||
    s.ports.any (·.inbox = inbox)

/-- A start on its way to the hub that brings this inbox. -/
def brings (inbox : Inbox) : HubInput → Bool
  | .fromTab (.start _ _) (some i) => i = inbox
  | _ => false

/-- The hub can put messages into an inbox. -/
def isServed (s : Stage) (inbox : Inbox) : Bool :=
  s.hub.any (·.roster.holds inbox) || s.queue.any (brings inbox)

/-- The messages in an inbox. -/
def mail (s : Stage) (inbox : Inbox) : List HubMessage :=
  (s.letters.filter (·.inbox = inbox)).map (·.message)

def clearMail (s : Stage) (inbox : Inbox) : Stage :=
  { s with letters := s.letters.filter (·.inbox ≠ inbox) }

/-! ## The hub's effects -/

/-- Something for the hub to take; nobody takes it once the hub is shut down. -/
def post (s : Stage) (i : HubInput) : Stage :=
  if s.hub.isSome then { s with queue := s.queue ++ [i] } else s

/-- The server takes an attempt to connect. -/
def receive (s : Stage) (a : Attempt) : Reception → Stage
  | .accept => post { s with server.line := some ⟨a, true, true⟩ } (.link a .opened)
  | .refuse => s.post (.link a (.ended (.error "connect failed")))
  | .silence => { s with dialing := some (a, s.clock + s.config.connectTimeout) }

/-- The hub lets go of an attempt's connection. -/
def hangUp (s : Stage) (a : Attempt) : Stage :=
  { s with
    dialing := s.dialing.filter (·.1 ≠ a)
    server.line := s.server.line.map fun l => if l.attempt = a then { l with up := false } else l }

/-- What the hub sends is read by the server unless it stopped reading. -/
def hears (s : Stage) (a : Attempt) : Bool :=
  s.server.line.any fun l => l.attempt = a && l.listening

/-- Do what the hub wants done. -/
def perform (s : Stage) : HubEffect → Stage
  | .deliver l => if s.isRead l.inbox then { s with letters := s.letters ++ [l] } else s
  | .watch tab => { s with watches := s.watches ++ [(tab, s.leases.waitFor tab.text)] }
  | .connect a after =>
    receive
      { s with
        news.connects := s.news.connects ++ [after]
        server.receptions := s.server.receptions.drop 1 }
      a (s.server.receptions.headD .accept)
  | .hangUp a => s.hangUp a
  | .retryAfter delay => { s with retryAt := some (s.clock + delay) }
  | .send a summary =>
    if s.hears a then { s with news.sent := s.news.sent ++ [summary] } else s

/-- The hub came to an outcome. -/
def performAll (s : Stage) (o : Hub.Outcome) : Stage := o.2.foldl perform { s with hub := some o.1 }

/-- The hub takes an input. -/
def hubTakes (s : Stage) (i : HubInput) : Stage :=
  match s.hub with
  | some h => s.performAll (h.step i)
  | none => s

/-! ## The tabs' effects -/

/-- A tab ends; its lease is given back. -/
def endGuest (s : Stage) (id : TabId) : Stage :=
  let ending := s.guests.filter fun g => g.id = id && g.alive
  let s := { s with
    guests := s.guests.map fun g =>
      if g.id = id then { g with alive := false, tab := g.tab.refresh s.today } else g }
  ending.foldl (fun s g => clearMail { s with leases := s.leases.release g.lease } g.inbox) s

/-- A write of a tab waits for the server. -/
def isWriting (s : Stage) (id : TabId) : Bool := s.calls.any fun c => c.waiting && c.tab = id

/-- A tab that nobody can use ends with its last write. -/
def endUnused (s : Stage) (id : TabId) : Stage :=
  if s.guests.any (fun g => g.id = id && g.alive && !g.held) && !s.isWriting id then s.endGuest id
  else s

/-- Do what a tab wants done; `name` is that of the write it is about. -/
def performFor (id : TabId) (name : String) (s : Stage) : TabEffect → Stage
  | .tell e =>
    { s with guests := s.guests.map fun g =>
        if g.id = id then { g with events := g.events ++ [e] } else g }
  | .ask w =>
    { s with
      calls := s.calls ++ [{ tab := id, name, write := w }]
      news.calls := s.news.calls ++ [w.request] }
  | .answer r => { s with news.written := s.news.written ++ [(name, r)] }
  | .report subject active => s.post (.fromTab (.activity id subject active) none)

/-- A tab takes an input. -/
def tabTakes (s : Stage) (g : Guest) (name : String) (i : TabInput) : Stage :=
  let (tab, effects) := g.tab.step i
  effects.foldl (performFor g.id name)
    { s with guests := s.guests.map fun x => if x.id = g.id then { x with tab } else x }

/-- The tab with an id. -/
def guest? (s : Stage) (id : TabId) : Option Guest := s.guests.find? (·.id = id)

/-- The tab that was opened last under a label and can still be used. -/
def labelled? (s : Stage) (label : String) : Option Guest :=
  s.guests.reverse.find? fun g => g.label = label && g.held

end Stage

end HuntBoard.Rehearsal
