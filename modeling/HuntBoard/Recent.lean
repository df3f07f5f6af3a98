-- The newest events of the stream, kept so that a tab that attaches late can
-- be told what happened since its snapshot was taken.
import HuntBoard.SyncEvent

namespace HuntBoard

/-- The newest events, oldest first, and no more of them than the capacity. -/
structure Recent where
  capacity : Nat
  events : List SyncEvent
  capacity_pos : 0 < capacity
  length_le : events.length ≤ capacity

namespace Recent

/-- The capacity where none is asked for. -/
def usualCapacity : Nat := 256

/-- A buffer that keeps `capacity` events, but at least one. -/
def ofCapacity (capacity : Nat) : Recent :=
  ⟨max capacity 1, [], by omega, by simp⟩

instance : Inhabited Recent := ⟨ofCapacity usualCapacity⟩

/-- Add an event; a full buffer gives up its oldest. -/
def push (r : Recent) (e : SyncEvent) : Recent × Option SyncEvent :=
  if h : r.events.length < r.capacity then
    (⟨r.capacity, r.events ++ [e], r.capacity_pos, by
        rw [List.length_append, List.length_singleton]; omega⟩, none)
  else
    (⟨r.capacity, r.events.drop 1 ++ [e], r.capacity_pos, by
        have := r.length_le
        have := r.capacity_pos
        rw [List.length_append, List.length_drop, List.length_singleton]
        omega⟩,
      r.events.head?)

def clear (r : Recent) : Recent := ⟨r.capacity, [], r.capacity_pos, by simp⟩

/-- The id that the next connection has to resume after. -/
def last? (r : Recent) : Option ChangeId := r.events.getLast?.map (·.changeId)

def oldest? (r : Recent) : Option ChangeId := r.events.head?.map (·.changeId)

end Recent

end HuntBoard
