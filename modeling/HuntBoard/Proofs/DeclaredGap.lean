-- The one leap of a copy. A snapshot may say that changes behind it are missing with nothing
-- lost, and then the first change that is taken may skip ahead. All others follow one by one.
import HuntBoard.Proofs.Batches
import Mathlib.Data.List.Chain

namespace HuntBoard

namespace Replica

variable {r : Replica} {e : SyncEvent} {es : List SyncEvent}

/-! ## Changes that are taken -/

/-- The ids of the changes that a copy takes when they are offered one by one. -/
def taken (r : Replica) (es : List SyncEvent) : List ChangeId :=
  ((es.zip (r.answers es)).filter (·.2 = .changed)).map (·.1.changeId)

@[simp] theorem taken_nil (r : Replica) : r.taken [] = [] := rfl

theorem taken_cons (r : Replica) (e : SyncEvent) (es : List SyncEvent) :
    r.taken (e :: es) =
      if (r.apply e).2 = .changed then e.changeId :: (r.apply e).1.taken es
      else (r.apply e).1.taken es := by
  unfold taken
  rw [answers, List.zip_cons_cons, List.filter_cons]
  by_cases h : (r.apply e).2 = .changed
  · simp [h]
  · simp [h]

/-- A change that is not taken leaves the copy as it was, and so may be left out. -/
theorem apply_of_refused (h : (r.apply e).2 ≠ .changed) : (r.apply e).1 = r := by
  rcases r.apply_cases e with ⟨-, ha⟩ | ⟨-, -, ha⟩ | ⟨-, -, ha⟩
  · rw [ha]
  · rw [ha]
  · rw [ha] at h
    exact absurd rfl h

theorem taken_cons_of_refused (h : (r.apply e).2 ≠ .changed) : r.taken (e :: es) = r.taken es := by
  rw [taken_cons, if_neg h, apply_of_refused h]

theorem offered_cons_of_refused (h : (r.apply e).2 ≠ .changed) :
    r.offered (e :: es) = r.offered es := by
  rw [offered_cons, apply_of_refused h]

/-- A change is taken if it comes next, or if it lies ahead and a gap is still allowed. -/
theorem apply_eq_changed_iff (r : Replica) (e : SyncEvent) :
    (r.apply e).2 = .changed ↔
      e.changeId.number = r.watermark.number + 1 ∨
      r.gapAllowed = true ∧ r.watermark.number < e.changeId.number := by
  rcases r.apply_cases e with ⟨hle, ha⟩ | ⟨hlt, hg, ha⟩ | ⟨hlt, hnext, ha⟩
  · rw [ha]
    constructor
    · intro h
      cases h
    · rintro (h | ⟨-, h⟩)
      · omega
      · omega
  · rw [ha]
    constructor
    · intro h
      cases h
    · rintro (h | ⟨h, -⟩)
      · omega
      · simp [hg] at h
  · rw [ha]
    refine ⟨fun _ => ?_, fun _ => rfl⟩
    rcases hnext with hg | hnext
    · exact Or.inr ⟨hg, hlt⟩
    · exact Or.inl hnext

/-- What a copy is after it took a change. -/
theorem apply_of_changed (h : (r.apply e).2 = .changed) :
    (r.apply e).1.watermark = e.changeId ∧ (r.apply e).1.gapAllowed = false ∧
    r.watermark.number < e.changeId.number := by
  rcases r.apply_cases e with ⟨-, ha⟩ | ⟨-, -, ha⟩ | ⟨hlt, -, ha⟩
  · rw [ha] at h
    cases h
  · rw [ha] at h
    cases h
  · rw [ha]
    exact ⟨rfl, rfl, hlt⟩

/-! ## Runs -/

/-- Without a gap, the changes that are taken follow the watermark one by one. -/
theorem taken_follow (hg : r.gapAllowed = false) (es : List SyncEvent) :
    ((r.watermark :: r.taken es).map ChangeId.number).IsChain (fun a b => b = a + 1) := by
  induction es generalizing r with
  | nil => exact List.isChain_singleton _
  | cons e es ih =>
    by_cases h : (r.apply e).2 = .changed
    · obtain ⟨hw, hgap, -⟩ := apply_of_changed h
      have hnext : e.changeId.number = r.watermark.number + 1 := by
        rcases (apply_eq_changed_iff r e).1 h with hnext | ⟨hg', -⟩
        · exact hnext
        · simp [hg] at hg'
      have hrest := ih hgap
      rw [hw] at hrest
      rw [taken_cons, if_pos h]
      exact List.isChain_cons_cons.2 ⟨hnext, hrest⟩
    · rw [taken_cons_of_refused h]
      exact ih hg

/-- With or without a gap, the changes behind the first that is taken follow it one by one. -/
theorem taken_isChain (r : Replica) (es : List SyncEvent) :
    ((r.taken es).map ChangeId.number).IsChain (fun a b => b = a + 1) := by
  induction es generalizing r with
  | nil => exact List.isChain_nil
  | cons e es ih =>
    by_cases h : (r.apply e).2 = .changed
    · obtain ⟨hw, hgap, -⟩ := apply_of_changed h
      have hrest := taken_follow hgap es
      rw [hw] at hrest
      rw [taken_cons, if_pos h]
      exact hrest
    · rw [taken_cons_of_refused h]
      exact ih r

/-- All changes that are taken lie beyond the watermark, each beyond those before it. -/
theorem taken_ascend (r : Replica) (es : List SyncEvent) :
    ((r.watermark :: r.taken es).map ChangeId.number).Pairwise (· < ·) := by
  rw [← List.isChain_iff_pairwise]
  induction es generalizing r with
  | nil => exact List.isChain_singleton _
  | cons e es ih =>
    by_cases h : (r.apply e).2 = .changed
    · obtain ⟨hw, -, hlt⟩ := apply_of_changed h
      have hrest := ih (r.apply e).1
      rw [hw] at hrest
      rw [taken_cons, if_pos h]
      exact List.isChain_cons_cons.2 ⟨hlt, hrest⟩
    · rw [taken_cons_of_refused h]
      exact ih r

theorem watermark_eq_last (r : Replica) (es : List SyncEvent) :
    (r.offered es).watermark = (r.taken es).getLastD r.watermark := by
  induction es generalizing r with
  | nil => rfl
  | cons e es ih =>
    by_cases h : (r.apply e).2 = .changed
    · rw [offered_cons, ih, (apply_of_changed h).1, taken_cons, if_pos h, List.getLastD_cons]
    · rw [offered_cons_of_refused h, taken_cons_of_refused h, ih]

/-- The gap is allowed until a change is taken. -/
theorem gapAllowed_offered (r : Replica) (es : List SyncEvent) :
    (r.offered es).gapAllowed = true ↔ r.gapAllowed = true ∧ r.taken es = [] := by
  induction es generalizing r with
  | nil => simp
  | cons e es ih =>
    by_cases h : (r.apply e).2 = .changed
    · rw [offered_cons, ih, (apply_of_changed h).2.1, taken_cons, if_pos h]
      simp
    · rw [offered_cons_of_refused h, taken_cons_of_refused h, ih]

/-! ## The law -/

/-- Whatever is offered to the copy of a snapshot, one by one: the changes that it takes ascend
from the snapshot's, each the next one behind the one before it. Only the first may skip ahead,
and only if the snapshot declared a gap. The watermark is the last of them. A change is taken if
it comes next, or if it lies ahead while a declared gap has not been used; any other leaves the
copy as it was. What is expected next is never counted beyond the last id there is, and behind
that nothing is taken any more. -/
theorem a_copy_leaps_at_most_once (s : Snapshot) (es : List SyncEvent) :
    let r := (ofSnapshot s).offered es
    let ids := ((ofSnapshot s).taken es).map ChangeId.number
    (s.changeId.number :: ids).Pairwise (· < ·) ∧
    ids.IsChain (fun a b => b = a + 1) ∧
    (s.knownGap = false → ∀ first ∈ ids.head?, first = s.changeId.number + 1) ∧
    r.watermark = ((ofSnapshot s).taken es).getLastD s.changeId ∧
    (∀ e, (r.apply e).2 = .changed ↔
      e.changeId.number = r.watermark.number + 1 ∨
      (s.knownGap = true ∧ ids = []) ∧ r.watermark.number < e.changeId.number) ∧
    (∀ e, (r.apply e).2 ≠ .changed → (r.apply e).1 = r) ∧
    (∀ e expected got, (r.apply e).2 = .drift expected got →
      expected.number = r.watermark.number + 1 ∧ got = e.changeId ∧
      expected.number < got.number) ∧
    r.watermark.next.number = min (r.watermark.number + 1) ChangeId.last.number ∧
    (r.watermark = .last → ∀ e, r.apply e = (r, .stale)) := by
  intro r ids
  have hgap : r.gapAllowed = true ↔ s.knownGap = true ∧ ids = [] := by
    rw [gapAllowed_offered, List.map_eq_nil_iff]
    rfl
  refine ⟨taken_ascend (ofSnapshot s) es, taken_isChain (ofSnapshot s) es, ?_,
    watermark_eq_last (ofSnapshot s) es, ?_, fun e => apply_of_refused, ?_,
    r.watermark.next_val, ?_⟩
  · intro hs first hfirst
    have hfollow := taken_follow (r := ofSnapshot s) hs es
    rw [List.map_cons, List.isChain_cons] at hfollow
    exact hfollow.1 first hfirst
  · intro e
    rw [apply_eq_changed_iff, hgap]
  · intro e expected got h
    rcases r.apply_cases e with ⟨-, ha⟩ | ⟨hlt, -, ha⟩ | ⟨-, -, ha⟩
    · rw [ha] at h
      cases h
    · rw [ha] at h
      obtain ⟨rfl, rfl⟩ := Applied.drift.inj h
      have hnext := ChangeId.next_number (a := r.watermark) (b := e.changeId) (by omega)
      exact ⟨hnext, rfl, by omega⟩
    · rw [ha] at h
      cases h
  · intro hlast e
    apply apply_stale
    rw [hlast]
    exact Nat.le_of_lt_succ e.changeId.val.toNat_lt

/-- A snapshot four changes before the last that can be, with a gap behind it. -/
def nearTheEnd : Snapshot := { changeId := ⟨18446744073709551611⟩, knownGap := true }

/-- A change that is held, a leap over one change, and one that skips another. -/
def leaping : List SyncEvent :=
  [removal 18446744073709551610, removal 18446744073709551613, removal 18446744073709551615]

/-- The gap outlasts what is held already, and the leap uses it up. So the change that skips another
is refused, until what it skipped has come. Then the last change there is can be taken, and no
other behind it. Without the gap there is no leap. -/
theorem the_leap_near_the_end :
    let early := (ofSnapshot nearTheEnd).offered [removal 18446744073709551610]
    let leapt := (ofSnapshot nearTheEnd).offered leaping
    let ending := leaping ++ [removal 18446744073709551614, removal 18446744073709551615]
    let ended := (ofSnapshot nearTheEnd).offered ending
    let plain : Snapshot := { nearTheEnd with knownGap := false }
    let next := [removal 18446744073709551613, removal 18446744073709551612]
    (early.apply (removal 18446744073709551613)).2 = .changed ∧
    leapt.watermark = ⟨18446744073709551613⟩ ∧
    (leapt.apply (removal 18446744073709551615)).2 = .drift ⟨18446744073709551614⟩ .last ∧
    (leapt.apply (removal 18446744073709551615)).1 = leapt ∧
    ChangeId.number ⟨18446744073709551614⟩ = leapt.watermark.number + 1 ∧
    ended.watermark = .last ∧ ended.apply (removal 0) = (ended, .stale) ∧
    (ofSnapshot plain).taken next = [⟨18446744073709551612⟩] ∧
    ChangeId.number ⟨18446744073709551612⟩ = plain.changeId.number + 1 := by
  intro early leapt ending ended plain next
  obtain ⟨-, -, -, -, htakes, -⟩ :=
    a_copy_leaps_at_most_once nearTheEnd [removal 18446744073709551610]
  obtain ⟨-, -, -, hmark, -, hkept, hdrift, -⟩ := a_copy_leaps_at_most_once nearTheEnd leaping
  obtain ⟨-, -, -, hlast, -, -, -, -, hend⟩ := a_copy_leaps_at_most_once nearTheEnd ending
  obtain ⟨-, -, hfirst, -⟩ := a_copy_leaps_at_most_once plain next
  have hleap : (early.apply (removal 18446744073709551613)).2 = .changed :=
    (htakes _).2 (Or.inr ⟨⟨rfl, by decide⟩, by decide⟩)
  have hleapt : leapt.watermark = ⟨18446744073709551613⟩ := by
    rw [hmark]
    decide
  have hanswer : (leapt.apply (removal 18446744073709551615)).2 =
      .drift ⟨18446744073709551614⟩ .last := by decide
  have hrefused : (leapt.apply (removal 18446744073709551615)).2 ≠ .changed := by
    rw [hanswer]
    simp
  have hended : ended.watermark = .last := by
    rw [hlast]
    decide
  have hnext : (ofSnapshot plain).taken next = [⟨18446744073709551612⟩] := by decide
  rw [hnext] at hfirst
  exact ⟨hleap, hleapt, hanswer, hkept _ hrefused, (hdrift _ _ _ hanswer).1, hended,
    hend hended _, hnext, hfirst rfl _ rfl⟩

end Replica

end HuntBoard
