-- The hub: it alone holds the connection to the server's stream, and serves
-- all tabs from it. One input goes in at a time; what the hub wants done
-- comes out, in order.
import HuntBoard.Activity
import HuntBoard.Config.Basic
import HuntBoard.Roster

namespace HuntBoard

/-! ## Inputs and effects -/

/-- What happens to an attempt to connect and to the connection it makes. -/
inductive LinkEvent where
  | opened
  | message (m : LiveMessage)
  | ended (f : Failure)
  deriving DecidableEq

inductive HubInput where
  /-- A tab speaks. A start comes with the inbox to answer to, unless nobody
  reads it any more. -/
  | fromTab (m : TabMessage) (inbox : Option Inbox)
  /-- Nobody holds the lease of a tab any more. -/
  | tabGone (tab : TabId)
  | link (a : Attempt) (e : LinkEvent)
  /-- The delay before the next attempt is over. -/
  | retryDue
  /-- It is time to look for news of activity. -/
  | flushDue
  deriving DecidableEq

inductive HubEffect where
  | deliver (l : Letter)
  /-- Report when the lease of a tab is held by nobody. -/
  | watch (tab : TabId)
  /-- Connect, with the events after a change. -/
  | connect (a : Attempt) (after : Option ChangeId)
  | hangUp (a : Attempt)
  /-- Report when a delay is over. -/
  | retryAfter (delay : Nat)
  /-- Send a summary of activity on an attempt's connection. -/
  | send (a : Attempt) (s : ActivitySummary)
  deriving DecidableEq

/-! ## State -/

/-- The attempt in progress, or the connection it made. -/
structure Link where
  attempt : Attempt
  isOpen : Bool := false
  deriving DecidableEq

structure Hub where
  dialer : Dialer := {}
  /-- The state of the stream that the tabs were told last. -/
  published : LinkState := .disconnected
  recent : Recent := default
  roster : Roster := {}
  activity : Activity := {}
  /-- The settings that the stream sent last. -/
  settings : Option Settings := none
  link : Option Link := none
  /-- The delay before the next attempt is running. -/
  retryPending : Bool := false

namespace Hub

/-- A hub that has not connected yet. -/
def ofConfig (c : HubConfig) : Hub :=
  { dialer := .ofBackoff c.backoff, recent := .ofCapacity c.recentCapacity }

instance : Inhabited Hub := ⟨ofConfig default⟩

/-- A hub, and what it wants done to get there. -/
abbrev Outcome := Hub × List HubEffect

/-- Go on from an outcome. -/
def Outcome.andThen (o : Outcome) (f : Hub → Outcome) : Outcome :=
  ((f o.1).1, o.2 ++ (f o.1).2)

/-! ## Tabs -/

def broadcast (h : Hub) (m : HubMessage) : List HubEffect := (h.roster.broadcast m).map .deliver

/-- What a tab is told when it attaches: the state of the stream, the settings
if the stream sent any, and the newest events. -/
def welcome (h : Hub) : List HubMessage :=
  .status h.dialer.linkState :: (h.settings.toList.map .settings ++ h.recent.events.map .sync)

/-- A tab attaches; only one that was not attached has to be watched. -/
def attach (h : Hub) (tab : TabId) (scope : Option PuzzleId) (inbox : Inbox) : Outcome :=
  let (roster, isNew) := h.roster.attach tab scope inbox
  ({ h with roster },
    h.welcome.map (fun m => .deliver ⟨inbox, m⟩) ++ if isNew then [.watch tab] else [])

def fromTab (h : Hub) (m : TabMessage) (inbox : Option Inbox) : Outcome :=
  match m, inbox with
  | .start tab scope, some inbox => h.attach tab scope inbox
  | .start _ _, none => (h, [])
  | .activity tab subject active, _ =>
    if h.roster.contains tab then ({ h with activity := h.activity.report tab subject active }, [])
    else (h, [])

def tabGone (h : Hub) (tab : TabId) : Outcome :=
  match h.roster.detach tab with
  | (roster, true) => ({ h with roster, activity := h.activity.forget tab }, [])
  | (_, false) => (h, [])

/-! ## The stream -/

/-- Tell the tabs the state of the stream if it changed. -/
def publish (h : Hub) : Outcome :=
  let state := h.dialer.linkState
  if state = h.published then (h, [])
  else ({ h with published := state }, h.broadcast (.status state))

/-- Let go of the connection. -/
def dropLink (h : Hub) : Outcome :=
  ({ h with link := none }, (h.link.map fun l => HubEffect.hangUp l.attempt).toList)

/-- Start the next attempt, with the events after the last one that came. -/
def dial (h : Hub) : Outcome :=
  h.dropLink.andThen fun h =>
    match h.dialer.begin with
    | (dialer, some a) => ({ h with dialer, link := some ⟨a, false⟩ }, [.connect a h.recent.last?])
    | (dialer, none) => ({ h with dialer }, [])

/-- Send what `pick` takes from the activity, if there is a connection. -/
def flush (h : Hub) (pick : Activity → Activity × Option ActivitySummary) : Outcome :=
  match h.dialer.linkState, h.link with
  | .connected, some ⟨a, true⟩ =>
    let (activity, summary) := pick h.activity
    ({ h with activity }, (summary.map fun s => HubEffect.send a s).toList)
  | _, _ => (h, [])

/-- An attempt has its connection: the tabs are told, and the server is told
all there is of activity. -/
def opened (h : Hub) (a : Attempt) : Outcome :=
  match h.dialer.opened a with
  | (dialer, true) =>
    (publish { h with dialer, link := some ⟨a, true⟩ }).andThen fun h => h.flush Activity.all
  | (_, false) => (h, [])

/-- Pass a message of the stream on, and keep what later tabs need of it. -/
def fromStream (h : Hub) : LiveMessage → Outcome
  | .sync e => ({ h with recent := (h.recent.push e).1 }, h.broadcast (.sync e))
  | .settings s => ({ h with settings := some s }, h.broadcast (.settings s))
  | .presence p => (h, h.broadcast (.presence p))
  | .users u => (h, h.broadcast (.users u))

def retry (h : Hub) : Retry → Outcome
  | .now => h.dial
  | .after delay => ({ h with retryPending := true }, [.retryAfter delay])
  | .never => (h, [])

/-- An attempt or its connection ended. -/
def ended (h : Hub) (a : Attempt) (f : Failure) : Outcome :=
  match h.dialer.failed a f with
  | (dialer, some next) =>
    ((dropLink { h with dialer }).andThen publish).andThen fun h => h.retry next
  | (_, none) => (h, [])

/-- Events of attempts that were given up count for nothing. -/
def onLink (h : Hub) (a : Attempt) (e : LinkEvent) : Outcome :=
  if h.link.map (·.attempt) = some a then
    match e with
    | .opened => h.opened a
    | .message m => h.fromStream m
    | .ended f => h.ended a f
  else (h, [])

def retryDue (h : Hub) : Outcome :=
  if h.link.isNone then dial { h with retryPending := false }
  else ({ h with retryPending := false }, [])

/-! ## Running -/

def step (h : Hub) : HubInput → Outcome
  | .fromTab m inbox => h.fromTab m inbox
  | .tabGone tab => h.tabGone tab
  | .link a e => h.onLink a e
  | .retryDue => h.retryDue
  | .flushDue => h.flush Activity.news

/-- Take inputs in order. -/
def run (h : Hub) : List HubInput → Outcome
  | [] => (h, [])
  | i :: rest => (h.step i).andThen fun h => h.run rest

/-- A hub starts by connecting. -/
def start (c : HubConfig) : Outcome := (ofConfig c).dial

end Hub

end HuntBoard
