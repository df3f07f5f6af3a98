-- How leases are kept: a table of locks by name, and guards for those that are locked. A lock that
-- has left the table stays for whoever waits for it.
import HuntBoard.Lease

namespace HuntBoard

abbrev LockNumber := Nat

/-- Whoever has a guard has the lease of its name. -/
structure Guard where
  name : String
  lock : LockNumber
  deriving DecidableEq

/-- The locks by name, and of every lock that was ever made whether it is locked. -/
structure LockTable where
  entries : KeyedMap String LockNumber := .empty
  locked : List Bool := []
  deriving DecidableEq

namespace LockTable

def empty : LockTable := {}

def isLocked (t : LockTable) (n : LockNumber) : Bool := t.locked[n]?.getD false

/-- The lock of a name; if there is none, one is made, and it is open. -/
def entry (t : LockTable) (name : String) : LockTable × LockNumber :=
  match t.entries.get? name with
  | some n => (t, n)
  | none =>
    ({ entries := t.entries.insert name t.locked.length, locked := t.locked ++ [false] },
      t.locked.length)

/-- Lock a lock, if it is open. -/
def tryLock (t : LockTable) (n : LockNumber) : Option LockTable :=
  if t.isLocked n then none else some { t with locked := t.locked.set n true }

/-- Take the lease of a name, if its lock is open; nobody waits for that here. -/
def hold (t : LockTable) (name : String) : LockTable × Except LeaseHeld Guard :=
  let (t, n) := t.entry name
  match t.tryLock n with
  | some t => (t, .ok ⟨name, n⟩)
  | none => (t, .error ⟨name⟩)

/-- A guard is dropped: the name has no lock any more, and then the lock opens. -/
def drop (t : LockTable) (g : Guard) : LockTable where
  entries := t.entries.erase g.name
  locked := t.locked.set g.lock false

def isHeld (t : LockTable) (name : String) : Bool := (t.entries.get? name).any t.isLocked

/-- The lock that one waits for to open, or nothing. -/
def released (t : LockTable) (name : String) : Option LockNumber := t.entries.get? name

/-- The wait is over. -/
def isOver (t : LockTable) : Option LockNumber → Bool
  | none => true
  | some n => !t.isLocked n

end LockTable

end HuntBoard
