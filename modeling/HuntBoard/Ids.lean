-- The numbers that name things: puzzles and rounds by a signed id, changes
-- by their place in the server's history, tabs by a 128 bit id.

namespace HuntBoard

/-! ## Numbers of 64 bits -/

/-- A whole number as one of 64 bits with sign, if it fits. -/
def int64? (n : Int) : Option Int64 :=
  if -9223372036854775808 ≤ n ∧ n ≤ 9223372036854775807 then some (Int64.ofInt n) else none

/-- A number as one of 64 bits without sign, if it fits. -/
def uint64? (n : Nat) : Option UInt64 := if n < UInt64.size then some (UInt64.ofNat n) else none

/-! ## Puzzles and rounds -/

structure PuzzleId where
  val : Int64
  deriving DecidableEq, Inhabited

namespace PuzzleId

instance : Ord PuzzleId := ⟨fun a b => compare a.val b.val⟩

instance : Std.LawfulEqOrd PuzzleId where
  compare_self := Std.ReflOrd.compare_self (α := Int64)
  eq_of_compare := fun {a b} h => by
    obtain ⟨a⟩ := a
    obtain ⟨b⟩ := b
    exact congrArg _ (Std.LawfulEqOrd.eq_of_compare (α := Int64) h)

instance : Std.TransOrd PuzzleId where
  eq_swap := Std.OrientedOrd.eq_swap (α := Int64)
  isLE_trans := Std.TransOrd.isLE_trans (α := Int64)

/-- The id as written in paths, forms and keys. -/
def text (p : PuzzleId) : String := toString p.val.toInt

/-- The id as shown in diagnostics. -/
def tag (p : PuzzleId) : String := "Puzzle#" ++ p.text

end PuzzleId

structure RoundId where
  val : Int64
  deriving DecidableEq, Inhabited

namespace RoundId

instance : Ord RoundId := ⟨fun a b => compare a.val b.val⟩

instance : Std.LawfulEqOrd RoundId where
  compare_self := Std.ReflOrd.compare_self (α := Int64)
  eq_of_compare := fun {a b} h => by
    obtain ⟨a⟩ := a
    obtain ⟨b⟩ := b
    exact congrArg _ (Std.LawfulEqOrd.eq_of_compare (α := Int64) h)

instance : Std.TransOrd RoundId where
  eq_swap := Std.OrientedOrd.eq_swap (α := Int64)
  isLE_trans := Std.TransOrd.isLE_trans (α := Int64)

def text (r : RoundId) : String := toString r.val.toInt

/-- The id as shown in diagnostics. -/
def tag (r : RoundId) : String := "Round#" ++ r.text

end RoundId

/-! ## Changes -/

/-- The place of a change in the server's history. -/
structure ChangeId where
  val : UInt64
  deriving DecidableEq, Inhabited

namespace ChangeId

instance : Ord ChangeId := ⟨fun a b => compare a.val b.val⟩

instance : Std.LawfulEqOrd ChangeId where
  compare_self := Std.ReflOrd.compare_self (α := UInt64)
  eq_of_compare := fun {a b} h => by
    obtain ⟨a⟩ := a
    obtain ⟨b⟩ := b
    exact congrArg _ (Std.LawfulEqOrd.eq_of_compare (α := UInt64) h)

instance : Std.TransOrd ChangeId where
  eq_swap := Std.OrientedOrd.eq_swap (α := UInt64)
  isLE_trans := Std.TransOrd.isLE_trans (α := UInt64)

instance : LE ChangeId := ⟨fun a b => a.val ≤ b.val⟩

instance : LT ChangeId := ⟨fun a b => a.val < b.val⟩

instance (a b : ChangeId) : Decidable (a ≤ b) := inferInstanceAs (Decidable (a.val ≤ b.val))

instance (a b : ChangeId) : Decidable (a < b) := inferInstanceAs (Decidable (a.val < b.val))

/-- The last id there is. -/
def last : ChangeId := ⟨18446744073709551615⟩

/-- The id of the change that follows; the last id is followed by itself. -/
def next (c : ChangeId) : ChangeId := if c = last then last else ⟨c.val + 1⟩

def text (c : ChangeId) : String := toString c.val.toNat

/-- The id as shown in diagnostics. -/
def tag (c : ChangeId) : String := "@" ++ c.text

/-- Two change ids are ordered as the numbers they hold. -/
theorem le_iff (a b : ChangeId) : a ≤ b ↔ a.val.toNat ≤ b.val.toNat := UInt64.le_iff_toNat_le

theorem lt_iff (a b : ChangeId) : a < b ↔ a.val.toNat < b.val.toNat := UInt64.lt_iff_toNat_lt

theorem next_val (c : ChangeId) :
    c.next.val.toNat = min (c.val.toNat + 1) 18446744073709551615 := by
  have hb := c.val.toNat_lt
  unfold next
  split
  · rename_i h
    subst h
    rfl
  · rename_i h
    have : c.val.toNat ≠ 18446744073709551615 := by
      intro hc
      apply h
      obtain ⟨v⟩ := c
      simp only [last, mk.injEq]
      exact UInt64.toNat_inj.1 hc
    simp only [UInt64.toNat_add, UInt64.toNat_one]
    omega

end ChangeId

/-! ## Tabs -/

/-- A tab's own 128 bit id. -/
structure TabId where
  bits : BitVec 128
  deriving DecidableEq, Inhabited

namespace TabId

instance : Ord TabId := ⟨fun a b => compare a.bits b.bits⟩

instance : Std.LawfulEqOrd TabId where
  compare_self := Std.ReflOrd.compare_self (α := BitVec 128)
  eq_of_compare := fun {a b} h => by
    obtain ⟨a⟩ := a
    obtain ⟨b⟩ := b
    exact congrArg _ (Std.LawfulEqOrd.eq_of_compare (α := BitVec 128) h)

instance : Std.TransOrd TabId where
  eq_swap := Std.OrientedOrd.eq_swap (α := BitVec 128)
  isLE_trans := Std.TransOrd.isLE_trans (α := BitVec 128)

def ofNat (n : Nat) : TabId := ⟨BitVec.ofNat 128 n⟩

end TabId

end HuntBoard
