-- The cues of a rehearsal: what users, the server, the clock and others are
-- told to do.
import HuntBoard.Rehearsal.Settle

namespace HuntBoard.Rehearsal

/-- What becomes of a write that waits for the server; nothing when the write
is given up. -/
abbrev Verdict := Option (Except ServerFault WriteReply)

inductive Cue where
  | begin
  | openTab (label : String) (scope : Option PuzzleId)
  | closeTab (label : String)
  | dropTab (label : String)
  /-- Forget what a tab told and was not seen yet. -/
  | listenAnew (label : String)
  | activity (label : String) (subject : PuzzleId) (active : Bool)
  | write (label name : String) (request : WriteRequest) (optimistic : Bool)
  | respond (call : Nat) (v : Verdict)
  | home (answer : Except ServerFault Snapshot)
  | gate (closed : Bool)
  | push (messages : List LiveMessage)
  | hangUp (f : Failure)
  | dropFrames
  | stopListening
  | receptions (l : List Reception)
  | advance (ms : Nat)
  | shutdown
  | openPort (name : String)
  | send (name : String) (m : TabMessage)
  | dropPort (name : String)
  | hold (lease : String)
  | release (lease : String)

namespace Stage

def reply (s : Stage) (r : Reply) : Stage := { s with news.reply := some r }

/-! ## The tabs -/

/-- Ids of tabs are all different; these stay clear of small ones. -/
def tabIdOf (n : Nat) : TabId := .ofNat (Nat.pow 2 96 + n)

/-- A tab takes its lease, attaches, and waits for its snapshot. -/
def openTab (s : Stage) (label : String) (scope : Option PuzzleId) : Stage :=
  let id := tabIdOf s.nextTab
  let s := { s with nextTab := s.nextTab + 1 }
  if s.hub.isSome then
    match s.leases.take id.text with
    | (leases, some lease) =>
      let inbox := s.nextInbox
      post
        { s with
          leases
          nextInbox := inbox + 1
          openings := s.openings ++ [⟨label, id, inbox, lease⟩] }
        (.fromTab (.start id scope) (some inbox))
    | (_, none) => s
  else { s with news.opened := s.news.opened ++ [(label, .error .hubClosed)] }

def dropTab (s : Stage) (g : Guest) : Stage :=
  endUnused
    { s with guests := s.guests.map fun x => if x.id = g.id then { x with held := false } else x }
    g.id

def write (s : Stage) (g : Guest) (name : String) (request : WriteRequest) (optimistic : Bool) : Stage :=
  if g.alive then s.tabTakes g name (.write request optimistic)
  else { s with news.written := s.news.written ++ [(name, .error .closed)] }

/-! ## The server -/

/-- What a tab makes of a verdict. -/
def outcomeOf : Verdict → Except WriteFault WriteReply
  | some (.ok r) => .ok r
  | some (.error f) => .error (.server f)
  | none => .error .aborted

def respond (s : Stage) (n : Nat) (v : Verdict) : Stage :=
  match s.calls[n]? with
  | some c =>
    if c.waiting then
      let s := { s with calls := s.calls.set n { c with waiting := false } }
      match (s.guest? c.tab).filter (·.alive) with
      | some g => (s.tabTakes g c.name (.settled c.write (outcomeOf v))).endUnused c.tab
      | none => { s with news.written := s.news.written ++ [(c.name, .error .closed)] }
    else s
  | none => s

/-- The server says something on the newest line, if there ever was one. -/
def onLine (s : Stage) (say : Stage → Attempt → Stage) : Stage :=
  match s.server.line with
  | some l => if l.up then (say s l.attempt).reply (.flag true) else s.reply (.flag false)
  | none => s

def pushOn (messages : List LiveMessage) (s : Stage) (a : Attempt) : Stage :=
  messages.foldl (fun s m => s.post (.link a (.message m))) s

/-- The server's end of the line is over. -/
def endLine (f : Failure) (s : Stage) (a : Attempt) : Stage :=
  post { s with server.line := s.server.line.map fun l => { l with up := false } } (.link a (.ended f))

def dropFrames (s : Stage) : Stage :=
  match s.server.line with
  | some l => if l.up then endLine (.error "the line dropped") s l.attempt else s
  | none => s

/-! ## The hub -/

/-- The hub stops: it takes nothing more, and its line is over. -/
def shutdown (s : Stage) : Stage :=
  { s with
    hub := none
    queue := []
    retryAt := none
    dialing := none
    server.line := s.server.line.map fun l => { l with up := false } }

/-- The hub starts, and from then on looks for news of activity now and then. -/
def begin (s : Stage) : Stage :=
  performAll { s with flushAt := s.config.flushInterval } (Hub.start s.config)

/-! ## By hand -/

/-- Post a message over a channel, unless the hub is shut down. -/
def postOver (s : Stage) (m : TabMessage) (inbox : Option Inbox) : Stage :=
  if s.hub.isSome then (s.post (.fromTab m inbox)).reply (.flag true) else s.reply .hubClosed

/-- Send over a channel. A start gives the way back to the hub, or shows it
again while the hub still has it. -/
def send (s : Stage) (p : HandPort) (m : TabMessage) : Stage :=
  match m with
  | .start _ _ =>
    postOver
      { s with ports := s.ports.map fun q => if q.name = p.name then { q with ownReply := false } else q }
      m (if p.ownReply || s.isServed p.inbox then some p.inbox else none)
  | .activity _ _ _ => s.postOver m none

def openPort (s : Stage) (name : String) : Stage :=
  { s with
    ports := s.ports.filter (·.name ≠ name) ++ [⟨name, s.nextInbox, true, false⟩]
    nextInbox := s.nextInbox + 1 }

def hold (s : Stage) (lease : String) : Stage :=
  match s.leases.take lease with
  | (leases, some n) => reply { s with leases, hands := s.hands.insert lease n } (.flag true)
  | (_, none) => s.reply (.leaseHeld ⟨lease⟩)

def release (s : Stage) (lease : String) : Stage :=
  match s.hands.get? lease with
  | some n => { s with leases := s.leases.release n, hands := s.hands.erase lease }
  | none => s

/-! ## All cues -/

/-- Do as a cue says with a tab that can be used, if there is one. -/
def withTab (s : Stage) (label : String) (act : Stage → Guest → Stage) : Stage :=
  match s.labelled? label with
  | some g => act s g
  | none => s

/-- Follow a cue. -/
def follow (s : Stage) : Cue → Stage
  | .begin => s.begin
  | .openTab label scope => s.openTab label scope
  | .closeTab label => s.withTab label fun s g => s.endGuest g.id
  | .dropTab label => s.withTab label dropTab
  | .listenAnew label => s.withTab label fun s g =>
    { s with guests := s.guests.map fun x => if x.id = g.id then { x with events := [] } else x }
  | .activity label subject active => s.withTab label fun s g =>
    if g.alive then s.tabTakes g "" (.activity subject active) else s.reply .tabClosed
  | .write label name request optimistic => s.withTab label fun s g =>
    s.write g name request (optimistic && request.isUpdate)
  | .respond call v => s.respond call v
  | .home answer => { s with server.home := answer }
  | .gate closed => { s with server.gateClosed := closed }
  | .push messages => s.onLine (pushOn messages)
  | .hangUp f => s.onLine (endLine f)
  | .dropFrames => s.dropFrames
  | .stopListening => { s with server.line := s.server.line.map fun l => { l with listening := false } }
  | .receptions l => { s with server.receptions := s.server.receptions ++ l }
  | .advance ms => s.settle.advance ms
  | .shutdown => s.shutdown
  | .openPort name => s.openPort name
  | .send name m =>
    match s.ports.find? (·.name = name) with
    | some p => s.send p m
    | none => s
  | .dropPort name => { s with ports := s.ports.filter (·.name ≠ name) }
  | .hold lease => s.hold lease
  | .release lease => s.release lease

end Stage

end HuntBoard.Rehearsal
