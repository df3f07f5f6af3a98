-- What is found in an overlay after it changed.
import HuntBoard.Overlay
import HuntBoard.Proofs.KeyedMap

namespace HuntBoard

namespace WriteKey

theorem compare_confirmed_eq_lt {a b : ChangeId} :
    compare (confirmed a) (confirmed b) = .lt ↔ a < b := Std.compare_eq_lt (α := UInt64)

theorem compare_pending_eq_lt {m n : UInt64} :
    compare (pending m) (pending n) = .lt ↔ m < n := Std.compare_eq_lt (α := UInt64)

end WriteKey

namespace Overlay

variable (o : Overlay) (key k : WriteKey) (c w : ChangeId) (e : Edit)

/-- Two overlays that show the same under every key, and number the next write
alike, are the same. -/
theorem ext_get? {o p : Overlay} (hget : ∀ k, o.get? k = p.get? k)
    (hnext : o.nextPending = p.nextPending) : o = p := by
  obtain ⟨edits, next⟩ := o
  obtain ⟨edits', next'⟩ := p
  obtain rfl : edits = edits' := KeyedMap.ext_get? hget
  obtain rfl : next = next' := hnext
  rfl

theorem get?_erase : (o.erase key).get? k = if k = key then none else o.get? k := by
  unfold get? erase
  rw [KeyedMap.get?_erase]
  simp only [Entries.compare_eq_iff]

theorem erase_of_get?_none (h : o.get? key = none) : o.erase key = o := by
  unfold erase
  rw [KeyedMap.erase_of_get?_none h]

/-- The overlay without a write that was shown under a key, if it was shown at all. -/
def forget (o : Overlay) : Option WriteKey → Overlay
  | some key => o.erase key
  | none => o

theorem get?_forget (pending : Option WriteKey) :
    (o.forget pending).get? k = if pending = some k then none else o.get? k := by
  cases pending with
  | none => rfl
  | some key => simp only [forget, get?_erase, Option.some.injEq, eq_comm]

theorem forget_nextPending (pending : Option WriteKey) :
    (o.forget pending).nextPending = o.nextPending := by
  cases pending <;> rfl

/-- A confirmed write is shown if the server's state has not come that far. -/
theorem get?_confirm :
    (o.confirm c e w).1.get? k = if k = .confirmed c ∧ ¬ c ≤ w then some e else o.get? k := by
  unfold confirm
  by_cases hc : c ≤ w
  · simp [hc]
  · rw [if_neg hc]
    unfold get?
    rw [KeyedMap.get?_insert]
    simp only [Entries.compare_eq_iff, hc, not_false_eq_true, and_true]

theorem confirm_nextPending : (o.confirm c e w).1.nextPending = o.nextPending := by
  unfold confirm
  split <;> rfl

theorem erase_nextPending : (o.erase key).nextPending = o.nextPending := rfl

theorem pruneThrough_nextPending : (o.pruneThrough w).1.nextPending = o.nextPending := rfl

theorem get?_pruneThrough :
    (o.pruneThrough w).1.get? k = if outlives w k then o.get? k else none :=
  KeyedMap.get?_filterKeys (outlives w) o.edits k

theorem get?_addPending_confirmed :
    (o.addPending e).1.get? (.confirmed c) = o.get? (.confirmed c) :=
  KeyedMap.get?_insert_ne _ _ (by simp)

/-! ## The two halves -/

/-- The writes that the server accepted. -/
def confirmedPart (o : Overlay) : KeyedMap WriteKey Edit := o.edits.filterKeys fun k => !k.isPending

/-- The writes that are under way. -/
def pendingPart (o : Overlay) : KeyedMap WriteKey Edit := o.edits.filterKeys WriteKey.isPending

variable {o} {p : Overlay}

theorem confirmedPart_congr (h : ∀ c, o.get? (.confirmed c) = p.get? (.confirmed c)) :
    o.confirmedPart = p.confirmedPart :=
  KeyedMap.ext_get? fun k => by
    rw [confirmedPart, confirmedPart, KeyedMap.get?_filterKeys, KeyedMap.get?_filterKeys]
    cases k with
    | confirmed c => exact h c
    | pending n => rfl

theorem pendingPart_congr (h : ∀ n, o.get? (.pending n) = p.get? (.pending n)) :
    o.pendingPart = p.pendingPart :=
  KeyedMap.ext_get? fun k => by
    rw [pendingPart, pendingPart, KeyedMap.get?_filterKeys, KeyedMap.get?_filterKeys]
    cases k with
    | confirmed c => rfl
    | pending n => exact h n

variable (o)

theorem get?_pendingPart (n : UInt64) : o.pendingPart.get? (.pending n) = o.get? (.pending n) :=
  KeyedMap.get?_filterKeys ..

theorem addPending_pendingPart :
    (o.addPending e).1.pendingPart = o.pendingPart.insert (.pending o.nextPending) e :=
  KeyedMap.filter_insert_of_pos (p := fun (k : WriteKey) (_ : Edit) => k.isPending) rfl

theorem erase_pendingPart : (o.erase key).pendingPart = o.pendingPart.erase key :=
  KeyedMap.filter_erase (fun (k : WriteKey) (_ : Edit) => k.isPending) o.edits key

theorem confirm_confirmedPart (hc : ¬ c ≤ w) :
    (o.confirm c e w).1.confirmedPart = o.confirmedPart.insert (.confirmed c) e := by
  unfold confirm
  rw [if_neg hc]
  exact KeyedMap.filter_insert_of_pos (p := fun (k : WriteKey) (_ : Edit) => !k.isPending) rfl

theorem confirm_pendingPart : (o.confirm c e w).1.pendingPart = o.pendingPart := by
  apply pendingPart_congr
  intro n
  rw [get?_confirm, if_neg (by simp)]

theorem erase_pending_confirmedPart (n : UInt64) :
    (o.erase (.pending n)).confirmedPart = o.confirmedPart := by
  apply confirmedPart_congr
  intro c
  rw [get?_erase, if_neg (by simp)]

/-- The writes that the server accepted are shown first, then those under way. -/
theorem toList_eq_halves : o.toList = o.confirmedPart.toList ++ o.pendingPart.toList := by
  have hlast : o.toList.Pairwise fun a b => a.1.isPending → b.1.isPending :=
    o.edits.ascending.imp fun {a b} hab ha => by
      obtain ⟨ka, ea⟩ := a
      obtain ⟨kb, eb⟩ := b
      cases ka with
      | confirmed c => simp [WriteKey.isPending] at ha
      | pending n =>
        cases kb with
        | confirmed c => exact absurd (show Ordering.gt = .lt from hab) (by decide)
        | pending m => rfl
  change o.toList =
    (o.toList.filter fun x => !x.1.isPending) ++ o.toList.filter fun x => x.1.isPending
  generalize o.toList = l at hlast ⊢
  induction l with
  | nil => rfl
  | cons x l ih =>
    rw [List.pairwise_cons] at hlast
    cases hx : x.1.isPending with
    | false => simpa [hx] using ih hlast.2
    | true =>
      have hall : ∀ y ∈ l, y.1.isPending = true := fun y hy => hlast.1 y hy hx
      have hnone : l.filter (fun y => !y.1.isPending) = [] :=
        List.filter_eq_nil_iff.2 fun y hy => by simp [hall y hy]
      simp [hx, hnone, List.filter_eq_self.2 hall]

end Overlay

end HuntBoard
