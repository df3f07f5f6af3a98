-- The writes of a tab that the server's stream has not brought back yet, shown
-- on top of the server's state: first those the server accepted, in its order,
-- then those still under way, in the order they were made.
import HuntBoard.KeyedMap
import HuntBoard.Round

namespace HuntBoard

/-! ## Keys -/

/-- A write is known by the change the server made of it, or by a number of the
tab's own while it is under way. -/
inductive WriteKey where
  | confirmed (c : ChangeId)
  | pending (n : UInt64)
  deriving DecidableEq

namespace WriteKey

/-- Confirmed writes come before all pending ones. -/
def order : WriteKey → WriteKey → Ordering
  | confirmed a, confirmed b => compare a b
  | confirmed _, pending _ => .lt
  | pending _, confirmed _ => .gt
  | pending a, pending b => compare a b

instance : Ord WriteKey := ⟨order⟩

instance : Std.LawfulEqOrd WriteKey where
  compare_self := fun {a} => by
    cases a
    · exact Std.ReflOrd.compare_self (α := ChangeId)
    · exact Std.ReflOrd.compare_self (α := UInt64)
  eq_of_compare := fun {a b} h => by
    cases a <;> cases b
    · exact congrArg _ (Std.LawfulEqOrd.eq_of_compare (α := ChangeId) h)
    · exact absurd h (by simp [compare, order])
    · exact absurd h (by simp [compare, order])
    · exact congrArg _ (Std.LawfulEqOrd.eq_of_compare (α := UInt64) h)

instance : Std.TransOrd WriteKey where
  eq_swap := fun {a b} => by
    cases a <;> cases b
    · exact Std.OrientedOrd.eq_swap (α := ChangeId)
    · rfl
    · rfl
    · exact Std.OrientedOrd.eq_swap (α := UInt64)
  isLE_trans := fun {a b c} h1 h2 => by
    cases a <;> cases b <;> cases c
    · exact Std.TransOrd.isLE_trans (α := ChangeId) h1 h2
    · rfl
    · exact absurd h2 (by simp [compare, order])
    · rfl
    · exact absurd h1 (by simp [compare, order])
    · exact absurd h1 (by simp [compare, order])
    · exact absurd h2 (by simp [compare, order])
    · exact Std.TransOrd.isLE_trans (α := UInt64) h1 h2

def isPending : WriteKey → Bool
  | pending _ => true
  | confirmed _ => false

def changeId? : WriteKey → Option ChangeId
  | confirmed c => some c
  | pending _ => none

def text : WriteKey → String
  | confirmed c => c.tag
  | pending n => "local+" ++ toString n.toNat

end WriteKey

/-! ## The overlay -/

/-- What a write does to one entity. -/
inductive Edit where
  | patchPuzzle (id : PuzzleId) (patch : PuzzlePatch)
  | patchRound (id : RoundId) (patch : RoundPatch)
  | deletePuzzle (id : PuzzleId)
  | deleteRound (id : RoundId)
  deriving DecidableEq

structure Overlay where
  edits : KeyedMap WriteKey Edit := .empty
  nextPending : UInt64 := 0
  deriving DecidableEq

namespace Overlay

def empty : Overlay := {}

instance : Inhabited Overlay := ⟨empty⟩

/-- Add a write that is under way, under a number of its own. -/
def addPending (o : Overlay) (e : Edit) : Overlay × WriteKey :=
  let key := WriteKey.pending o.nextPending
  ({ edits := o.edits.insert key e, nextPending := o.nextPending + 1 }, key)

/-- Add a write that the server accepted as a change, unless the server's state
has come that far already. -/
def confirm (o : Overlay) (c : ChangeId) (e : Edit) (watermark : ChangeId) : Overlay × Bool :=
  if c ≤ watermark then (o, false)
  else ({ o with edits := o.edits.insert (.confirmed c) e }, true)

def erase (o : Overlay) (key : WriteKey) : Overlay := { o with edits := o.edits.erase key }

def get? (o : Overlay) (key : WriteKey) : Option Edit := o.edits.get? key

/-- A key stays when the server's state has come as far as the watermark. -/
def outlives (watermark : ChangeId) : WriteKey → Bool
  | .confirmed c => !(decide (c ≤ watermark))
  | .pending _ => true

/-- Drop the confirmed writes up to a watermark, and count them. -/
def pruneThrough (o : Overlay) (watermark : ChangeId) : Overlay × Nat :=
  let kept := o.edits.filterKeys (outlives watermark)
  ({ o with edits := kept }, o.edits.size - kept.size)

/-- The writes in the order they are shown. -/
def toList (o : Overlay) : List (WriteKey × Edit) := o.edits.toList

def pendingCount (o : Overlay) : Nat := (o.edits.filterKeys WriteKey.isPending).size

def size (o : Overlay) : Nat := o.edits.size

def confirmedCount (o : Overlay) : Nat := o.size - o.pendingCount

def isEmpty (o : Overlay) : Bool := o.edits.isEmpty

end Overlay

end HuntBoard
