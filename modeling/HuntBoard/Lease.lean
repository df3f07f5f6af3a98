-- Named leases by which tabs show that they are alive. Each lease that is
-- taken has a number of its own, so that who waits for one lease to end is not
-- held up by a later one of the same name. The locks that keep them are in the
-- table of locks.
import HuntBoard.KeyedMap
import HuntBoard.Text.Quoted

namespace HuntBoard

abbrev LeaseNumber := Nat

/-- The leases that are held, by name, and the number of the next. -/
structure Leases where
  held : KeyedMap String LeaseNumber := .empty
  next : LeaseNumber := 0
  deriving DecidableEq

namespace Leases

def empty : Leases := {}

/-- Take the lease of a name, if nobody holds it. -/
def take (t : Leases) (name : String) : Leases × Option LeaseNumber :=
  if t.held.contains name then (t, none)
  else ({ held := t.held.insert name t.next, next := t.next + 1 }, some t.next)

def isHeld (t : Leases) (name : String) : Bool := t.held.contains name

/-- The names that a lease is held under. -/
def namesOf (t : Leases) (n : LeaseNumber) : List String :=
  (t.held.toList.filter fun e => e.2 = n).map (·.1)

/-- A lease is held still. -/
def isAlive (t : Leases) (n : LeaseNumber) : Bool := t.held.toList.any fun e => e.2 = n

/-- Give a lease back. -/
def release (t : Leases) (n : LeaseNumber) : Leases :=
  { t with held := (t.namesOf n).foldl KeyedMap.erase t.held }

/-- What one waits for: the end of the lease that is held now, or nothing. -/
abbrev Wait := Option LeaseNumber

def waitFor (t : Leases) (name : String) : Wait := t.held.get? name

/-- The wait is over. -/
def isOver (t : Leases) : Wait → Bool
  | none => true
  | some n => !t.isAlive n

end Leases

/-- A lease as shown in diagnostics. -/
def Leases.tag (name : String) : String :=
  "LockGuard " ++ "\x7b" ++ " name: " ++ Text.quoted name ++ " " ++ "\x7d"

/-- Why a lease cannot be taken: somebody holds it. -/
structure LeaseHeld where
  name : String
  deriving DecidableEq

def LeaseHeld.message (f : LeaseHeld) : String := "lock " ++ Text.quoted f.name ++ " is already held"

end HuntBoard
