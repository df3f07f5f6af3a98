-- Leases: which names are held after one is taken or given back, and that a number stands for one
-- name for ever, so that whoever waits for a lease to end waits for that lease and no other.
import HuntBoard.Lease
import HuntBoard.Proofs.KeyedMap

namespace HuntBoard

/-- A map without some keys. -/
theorem KeyedMap.get?_foldl_erase {κ α : Type} [Ord κ] [Std.LawfulEqOrd κ] [DecidableEq κ] (ks : List κ)
    (m : KeyedMap κ α) (k : κ) : (ks.foldl erase m).get? k = if k ∈ ks then none else m.get? k := by
  induction ks generalizing m with
  | nil => rfl
  | cons j ks ih =>
    rw [List.foldl_cons, ih]
    by_cases hmem : k ∈ ks
    · rw [if_pos hmem, if_pos (List.mem_cons_of_mem j hmem)]
    · by_cases hj : k = j
      · subst hj
        rw [if_neg hmem, if_pos List.mem_cons_self, get?_erase_self]
      · rw [if_neg hmem, if_neg (by simp [hj, hmem]), get?_erase_ne m hj]

namespace Leases

variable (t : Leases)

theorem mem_namesOf (n : LeaseNumber) (name : String) :
    name ∈ t.namesOf n ↔ t.held.get? name = some n := by
  rw [KeyedMap.get?_eq_some_iff, namesOf, List.mem_map]
  constructor
  · rintro ⟨⟨x, m⟩, hx, rfl⟩
    obtain ⟨hmem, hm⟩ := List.mem_filter.1 hx
    obtain rfl : m = n := of_decide_eq_true hm
    exact hmem
  · intro hmem
    exact ⟨(name, n), List.mem_filter.2 ⟨hmem, decide_eq_true rfl⟩, rfl⟩

theorem isAlive_iff (n : LeaseNumber) : t.isAlive n ↔ ∃ name, t.held.get? name = some n := by
  rw [isAlive, List.any_eq_true]
  constructor
  · rintro ⟨⟨name, m⟩, hmem, hm⟩
    obtain rfl : m = n := of_decide_eq_true hm
    exact ⟨name, (t.held.get?_eq_some_iff name m).2 hmem⟩
  · rintro ⟨name, hname⟩
    exact ⟨(name, n), (t.held.get?_eq_some_iff name n).1 hname, decide_eq_true rfl⟩

/-- A lease that is given back is held no longer, and all others are. -/
theorem get?_release (n : LeaseNumber) (name : String) :
    (t.release n).held.get? name =
      if t.held.get? name = some n then none else t.held.get? name := by
  rw [release, KeyedMap.get?_foldl_erase]
  simp only [mem_namesOf]

/-- A name that is free is taken with a new number, and a name that is held stays as it is. -/
theorem get?_take (name x : String) :
    (t.take name).1.held.get? x =
      if x = name ∧ t.held.get? name = none then some t.next else t.held.get? x := by
  unfold take KeyedMap.contains
  cases hname : t.held.get? name with
  | none =>
    by_cases hx : x = name
    · subst hx
      simp
    · simp [hx, KeyedMap.get?_insert_ne]
  | some n => simp

/-- Besides the leases that are held already, the one that is given out now is held. -/
theorem isAlive_take {name : String} (h : t.held.get? name = none) (n : LeaseNumber) :
    (t.take name).1.isAlive n ↔ n = t.next ∨ t.isAlive n := by
  simp only [isAlive_iff, get?_take, h, and_true]
  constructor
  · rintro ⟨x, hx⟩
    split at hx
    · exact Or.inl (Option.some.inj hx).symm
    · exact Or.inr ⟨x, hx⟩
  · rintro (rfl | ⟨x, hx⟩)
    · exact ⟨name, if_pos rfl⟩
    · have hne : x ≠ name := by
        rintro rfl
        rw [h] at hx
        cases hx
      exact ⟨x, (if_neg hne).trans hx⟩

theorem isAlive_release (n m : LeaseNumber) : (t.release n).isAlive m ↔ m ≠ n ∧ t.isAlive m := by
  simp only [isAlive_iff, get?_release]
  constructor
  · rintro ⟨x, hx⟩
    split at hx
    · cases hx
    · next hn =>
      refine ⟨?_, x, hx⟩
      rintro rfl
      exact hn hx
  · rintro ⟨hne, x, hx⟩
    have hn : t.held.get? x ≠ some n := fun hn => hne (Option.some.inj (hx.symm.trans hn))
    exact ⟨x, (if_neg hn).trans hx⟩

/-- To give back a lease that is not held changes nothing. -/
theorem release_of_not_held {n : LeaseNumber} (h : ∀ name, t.held.get? name ≠ some n) :
    t.release n = t := by
  have hnone : t.namesOf n = [] := by
    rw [List.eq_nil_iff_forall_not_mem]
    intro name hname
    exact h name ((t.mem_namesOf n name).1 hname)
  unfold release
  rw [hnone]
  rfl

theorem next_take (name : String) : t.next ≤ (t.take name).1.next := by
  unfold take
  split
  · exact Nat.le_refl _
  · exact Nat.le_succ _

/-- A lease stands for one name: it was given out, and no other name is held with its number. -/
structure Names (n : LeaseNumber) (name : String) : Prop where
  lt_next : n < t.next
  eq_name : ∀ x, t.held.get? x = some n → x = name

/-- Every lease that is held stands for its name. -/
def Faithful : Prop := ∀ name n, t.held.get? name = some n → t.Names n name

variable {t} {n : LeaseNumber} {name : String}

theorem Names.release (h : t.Names n name) (m : LeaseNumber) : (t.release m).Names n name := by
  refine ⟨h.lt_next, fun x hx => h.eq_name x ?_⟩
  rw [get?_release] at hx
  split at hx
  · cases hx
  · exact hx

theorem Names.take (h : t.Names n name) (other : String) : (t.take other).1.Names n name := by
  refine ⟨Nat.lt_of_lt_of_le h.lt_next (t.next_take other), fun x hx => h.eq_name x ?_⟩
  rw [get?_take] at hx
  split at hx
  · -- The number that is given out now is none of those given out before.
    obtain rfl := Option.some.inj hx
    exact absurd h.lt_next (Nat.lt_irrefl _)
  · exact hx

theorem faithful_empty : empty.Faithful := fun _ _ h => by cases h

theorem Faithful.release (h : t.Faithful) (m : LeaseNumber) : (t.release m).Faithful := by
  intro name n hn
  rw [get?_release] at hn
  split at hn
  · cases hn
  · exact (h name n hn).release m

theorem Faithful.take (h : t.Faithful) (other : String) : (t.take other).1.Faithful := by
  intro name n hn
  rw [get?_take] at hn
  split at hn
  · next hfree =>
    obtain ⟨rfl, hfree⟩ := hfree
    obtain rfl := Option.some.inj hn
    refine ⟨?_, fun x hx => ?_⟩
    · simp [Leases.take, KeyedMap.contains, hfree]
    · rw [get?_take] at hx
      split at hx
      · next hsame => exact hsame.1
      · exact absurd (h x _ hx).lt_next (Nat.lt_irrefl _)
  · exact (h name n hn).take other

/-- One waits for the lease that is held now. -/
theorem Faithful.waitFor (h : t.Faithful) (hn : t.waitFor name = some n) : t.Names n name :=
  h name n hn

/-- The wait for a lease is over when its name is not held with its number. -/
theorem Names.isOver_iff (h : t.Names n name) : t.isOver (some n) ↔ t.held.get? name ≠ some n := by
  rw [isOver, Bool.not_eq_true', ← Bool.not_eq_true, isAlive_iff]
  refine not_congr ⟨?_, fun hn => ⟨name, hn⟩⟩
  rintro ⟨x, hx⟩
  rwa [← h.eq_name x hx]

end Leases

end HuntBoard
