-- Looking at a rehearsal after a cue: what is on the stage, and what is new
-- since the last look.
import HuntBoard.Rehearsal.Cue

namespace HuntBoard.Rehearsal

/-- How many events of a tab are kept for who looks late. -/
def eventsKept : Nat := 64

/-- What is new of a tab; of the rest, only what differs from the last look. -/
structure TabNews where
  label : String
  /-- How many events were lost before those that are kept. -/
  lost : Nat
  events : List TabEvent
  stats : Option Stats
  connection : Option LinkState
  settings : Option Settings
  board : Option Board

/-- What is new of a channel that is driven by hand. -/
structure PortNews where
  name : String
  messages : List HubMessage
  ended : Bool

structure Report where
  /-- The state of the stream as the hub sees it, until the hub is shut down. -/
  status : Option LinkState
  /-- The tabs that the hub serves, by name. -/
  attached : Option (List String)
  news : News
  tabs : List TabNews
  ports : List PortNews

/-- A value if it differs from the one before. -/
def changed {α : Type} [DecidableEq α] (before : Option α) (now : α) : Option α :=
  if before = some now then none else some now

/-- What can be seen of a puzzle on a board; notes and links are not on it. -/
structure Face where
  id : PuzzleId
  name : String
  answer : String
  status : Status
  isMeta : Bool
  reminder : Option Instant
  deriving DecidableEq

def Face.ofPuzzle (p : Puzzle) : Face := ⟨p.id, p.name, p.answer, p.status, p.isMeta, p.reminder⟩

/-- What can be seen of a board. -/
structure Look where
  puzzleCount : Nat
  solvedCount : Nat
  rounds : List (Round × List Face)
  deriving DecidableEq

def Look.ofBoard (b : Board) : Look :=
  ⟨b.puzzleCount, b.solvedCount, b.rounds.map fun r => (r.round, r.puzzles.map .ofPuzzle)⟩

def TabNews.ofGuest (g : Guest) : TabNews where
  label := g.label
  lost := g.events.length - eventsKept
  events := g.events.drop (g.events.length - eventsKept)
  stats := changed (g.seen.map (·.stats)) g.sight.stats
  connection := changed (g.seen.map (·.connection)) g.sight.connection
  settings := changed (g.seen.map (·.settings)) g.sight.settings
  board := (changed (g.seen.map fun s => .ofBoard s.board) (Look.ofBoard g.sight.board)).map fun _ =>
    g.sight.board

def TabNews.isEmpty (n : TabNews) : Bool :=
  n.events.isEmpty && n.stats.isNone && n.connection.isNone && n.settings.isNone && n.board.isNone

def PortNews.isEmpty (n : PortNews) : Bool := n.messages.isEmpty && !n.ended

namespace Stage

/-- A tab by its label; one that is still opening has no name yet, and one that
is driven by hand goes by its id. -/
def nameOf (s : Stage) (id : TabId) : String :=
  match s.guest? id with
  | some g => g.label
  | none => if s.openings.any (·.id = id) then "?" else id.text

/-- The channel has ended: nobody can send on it any more. -/
def hasEnded (s : Stage) (p : HandPort) : Bool := !p.ownReply && !s.isServed p.inbox

def portNews (s : Stage) (p : HandPort) : PortNews :=
  ⟨p.name, s.mail p.inbox, s.hasEnded p && !p.endSeen⟩

/-- The tabs that are looked at: of those with the same label, the last. -/
def onView (s : Stage) : List Guest :=
  s.guests.filter fun g => (s.guests.reverse.find? (·.label = g.label)).any (·.id = g.id)

def report (s : Stage) : Report where
  status := s.hub.map (·.dialer.linkState)
  attached := s.hub.map fun h => (h.roster.tabs.map s.nameOf).mergeSort (fun a b => decide (a ≤ b))
  news := s.news
  tabs := (s.onView.map TabNews.ofGuest).filter (!·.isEmpty)
  ports := (s.ports.map s.portNews).filter (!·.isEmpty)

/-- The stage after a look at it. -/
def looked (s : Stage) : Stage :=
  let s' := { s with
    news := {}
    guests := s.guests.map fun g => { g with events := [], seen := some g.sight }
    ports := s.ports.map fun p => { p with endSeen := s.hasEnded p } }
  s.ports.foldl (fun s p => s.clearMail p.inbox) s'

/-- Follow a cue, let everything happen that can, and look. -/
def act (s : Stage) (c : Cue) : Stage × Report :=
  let s := (s.follow c).settle
  (s.looked, s.report)

end Stage

end HuntBoard.Rehearsal
