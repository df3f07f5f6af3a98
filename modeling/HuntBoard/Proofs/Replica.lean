-- What one offered change does to a replica, and what a list of them does when
-- the answers are ignored.
import HuntBoard.Replica

namespace HuntBoard

/-! ## Numbers of changes -/

namespace ChangeId

/-- The place of a change as a plain number. -/
def number (c : ChangeId) : Nat := c.val.toNat

variable {a b : ChangeId}

theorem le_iff_number : a ≤ b ↔ a.number ≤ b.number := le_iff a b

theorem lt_iff_number : a < b ↔ a.number < b.number := lt_iff a b

theorem not_le : ¬ a ≤ b ↔ b < a := by
  rw [le_iff_number, lt_iff_number, Nat.not_le]

theorem eq_of_number (h : a.number = b.number) : a = b := by
  obtain ⟨a⟩ := a
  obtain ⟨b⟩ := b
  exact congrArg _ (UInt64.toNat_inj.1 h)

/-- An id that has ids behind it is not the last, so its follower is one further. -/
theorem next_number (h : a.number < b.number) : a.next.number = a.number + 1 := by
  have hb := b.val.toNat_lt
  have hn := a.next_val
  unfold number at *
  omega

end ChangeId

namespace Replica

variable {r : Replica} {e : SyncEvent}

/-! ## One change -/

/-- All that can become of an offered change, with its number against the watermark. -/
theorem apply_cases (r : Replica) (e : SyncEvent) :
    (e.changeId.number ≤ r.watermark.number ∧ r.apply e = (r, .stale)) ∨
    (r.watermark.number + 1 < e.changeId.number ∧ r.gapAllowed = false ∧
      r.apply e = (r, .drift r.watermark.next e.changeId)) ∨
    (r.watermark.number < e.changeId.number ∧
      (r.gapAllowed = true ∨ e.changeId.number = r.watermark.number + 1) ∧
      r.apply e = ({ r with
        entities := r.entities.change e.change, watermark := e.changeId, gapAllowed := false },
        .changed)) := by
  by_cases hle : e.changeId.number ≤ r.watermark.number
  · left
    exact ⟨hle, by simp [apply, ChangeId.le_iff_number, hle]⟩
  · right
    have hlt : r.watermark.number < e.changeId.number := by omega
    have hnext := ChangeId.next_number hlt
    have hstale : ¬ e.changeId ≤ r.watermark := by rwa [ChangeId.le_iff_number]
    by_cases hdrift : e.changeId ≠ r.watermark.next ∧ r.gapAllowed = false
    · left
      refine ⟨?_, hdrift.2, by simp [apply, hstale, hdrift.1, hdrift.2]⟩
      have : e.changeId.number ≠ r.watermark.next.number := fun h =>
        hdrift.1 (ChangeId.eq_of_number h)
      omega
    · right
      refine ⟨hlt, ?_, by simp only [apply, hstale, hdrift, if_false]⟩
      by_cases hg : r.gapAllowed = true
      · exact Or.inl hg
      · right
        have heq : e.changeId = r.watermark.next :=
          Decidable.byContradiction fun hne => hdrift ⟨hne, by simpa using hg⟩
        rw [heq, hnext]

theorem apply_stale (h : e.changeId.number ≤ r.watermark.number) : r.apply e = (r, .stale) := by
  simp [apply, ChangeId.le_iff_number, h]

/-- Without a declared gap, a change that skips others is refused. -/
theorem apply_drift (hg : r.gapAllowed = false)
    (h : r.watermark.number + 1 < e.changeId.number) :
    r.apply e = (r, .drift r.watermark.next e.changeId) := by
  rcases apply_cases r e with ⟨hle, _⟩ | ⟨_, _, h'⟩ | ⟨_, hnext, _⟩
  · omega
  · exact h'
  · rcases hnext with hg' | hnext
    · simp [hg] at hg'
    · omega

theorem apply_next (h : e.changeId.number = r.watermark.number + 1) :
    r.apply e = ({ r with
      entities := r.entities.change e.change, watermark := e.changeId, gapAllowed := false },
      .changed) := by
  rcases apply_cases r e with ⟨hle, _⟩ | ⟨hlt, _⟩ | ⟨_, _, h'⟩
  · omega
  · omega
  · exact h'

theorem watermark_apply_le (r : Replica) (e : SyncEvent) :
    r.watermark.number ≤ (r.apply e).1.watermark.number := by
  rcases apply_cases r e with ⟨_, h⟩ | ⟨_, _, h⟩ | ⟨hlt, _, h⟩
  · exact h ▸ Nat.le_refl _
  · exact h ▸ Nat.le_refl _
  · rw [h]
    exact Nat.le_of_lt hlt

/-- The settings have no part in what becomes of a change. -/
theorem apply_setSettings (r : Replica) (s : Settings) (e : SyncEvent) :
    (r.setSettings s).apply e = ((r.apply e).1.setSettings s, (r.apply e).2) := by
  unfold apply setSettings
  simp only
  split
  · rfl
  · split <;> rfl

/-! ## Changes one by one -/

/-- The replica after changes were offered one by one, whatever it answered. -/
def offered (r : Replica) (es : List SyncEvent) : Replica := es.foldl (fun r e => (r.apply e).1) r

@[simp] theorem offered_nil (r : Replica) : r.offered [] = r := rfl

@[simp] theorem offered_cons (r : Replica) (e : SyncEvent) (es : List SyncEvent) :
    r.offered (e :: es) = (r.apply e).1.offered es := rfl

theorem offered_append (r : Replica) (es more : List SyncEvent) :
    r.offered (es ++ more) = (r.offered es).offered more := List.foldl_append

theorem offered_setSettings (r : Replica) (s : Settings) (es : List SyncEvent) :
    (r.setSettings s).offered es = (r.offered es).setSettings s := by
  induction es generalizing r with
  | nil => rfl
  | cons e es ih => rw [offered_cons, apply_setSettings, ih, offered_cons]

theorem watermark_offered_le (r : Replica) (es : List SyncEvent) :
    r.watermark.number ≤ (r.offered es).watermark.number := by
  induction es generalizing r with
  | nil => exact Nat.le_refl _
  | cons e es ih => exact Nat.le_trans (watermark_apply_le r e) (ih (r.apply e).1)

end Replica

end HuntBoard
