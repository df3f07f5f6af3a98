-- The attached tabs, and who gets which message.
import HuntBoard.Channel

namespace HuntBoard

/-- The number of an inbox that messages are put into. -/
abbrev Inbox := Nat

/-- A tab's place in the roster: the puzzle it has an eye on, and its inbox. -/
structure Seat where
  scope : Option PuzzleId
  inbox : Inbox
  deriving DecidableEq

/-- A message on its way into an inbox. -/
structure Letter where
  inbox : Inbox
  message : HubMessage
  deriving DecidableEq

/-- A letter, and the tab that it is meant for. -/
structure Parcel extends Letter where
  tab : TabId
  deriving DecidableEq

structure Roster where
  seats : KeyedMap TabId Seat := .empty
  deriving DecidableEq

namespace Roster

def empty : Roster := {}

/-- Seat a tab, over the seat it may have; tells whether the tab is new. -/
def attach (r : Roster) (tab : TabId) (scope : Option PuzzleId) (inbox : Inbox) : Roster × Bool :=
  (⟨r.seats.insert tab ⟨scope, inbox⟩⟩, !r.seats.contains tab)

/-- Take a tab's seat away; tells whether it had one. -/
def detach (r : Roster) (tab : TabId) : Roster × Bool :=
  (⟨r.seats.erase tab⟩, r.seats.contains tab)

def contains (r : Roster) (tab : TabId) : Bool := r.seats.contains tab

def tabs (r : Roster) : List TabId := r.seats.keys

def size (r : Roster) : Nat := r.seats.size

/-- An inbox that belongs to a seated tab. -/
def holds (r : Roster) (inbox : Inbox) : Bool := r.seats.values.any fun s => s.inbox = inbox

/-- A message for one tab. -/
def unicast (r : Roster) (tab : TabId) (m : HubMessage) : Option Letter :=
  (r.seats.get? tab).map fun s => ⟨s.inbox, m⟩

/-- A message as a tab with this scope is to see it: of presence, only the part
on its own puzzle, and nothing if there is none. -/
def narrowed (m : HubMessage) (scope : Option PuzzleId) : Option HubMessage :=
  match m, scope with
  | .presence p, some puzzle =>
    (p.get? puzzle).map fun users => .presence (.ofList [(puzzle, users)])
  | m, _ => some m

/-- What a message for all tabs brings to the one in a seat. -/
def parcel? (m : HubMessage) (tab : TabId) (seat : Seat) : Option Parcel :=
  (narrowed m seat.scope).map fun m => ⟨⟨seat.inbox, m⟩, tab⟩

/-- A message for all tabs, in the order of their ids, with the tabs that it is for. -/
def parcels (r : Roster) (m : HubMessage) : List Parcel :=
  r.seats.toList.filterMap fun e => parcel? m e.1 e.2

/-- A message for all tabs. -/
def broadcast (r : Roster) (m : HubMessage) : List Letter := (r.parcels m).map (·.toLetter)

end Roster

end HuntBoard
