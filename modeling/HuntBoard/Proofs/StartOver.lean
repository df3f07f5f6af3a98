-- Asking to start over: a tab does so when it has a reason, for the first reason that it has,
-- and once. An event that it does not take in is a reason, so none is lost in silence.
import HuntBoard.Proofs.TabSteps
import Mathlib.Data.List.Infix

namespace HuntBoard

open TabEffect

/-! ## Reasons -/

/-- An input is a reason to start over for a tab: the stream is dead, an event skips others,
which are those from the next one on, or the server does not accept the session any more. -/
inductive Tab.Reason (t : Tab) : TabInput → ReloadReason → Prop where
  | dead : t.Reason (.message (.status .dead)) .dead
  | drift {e : SyncEvent} (h : ∃ expected got, (t.replica.apply e).2 = .drift expected got) :
    t.Reason (.message (.sync e)) (.drift t.replica.watermark.next e.changeId)
  | unauthorized (w : OpenWrite) :
    t.Reason (.settled w (.error (.server .unauthorized))) .unauthorized

namespace Replica

variable {r : Replica} {e : SyncEvent} {is : List TabInput} {q : ReloadReason}

/-- What is found among the causes of inputs was met at one of them. -/
theorem mem_causes :
    q ∈ r.causes is ↔
      ∃ before i, before ++ [i] <+: is ∧ (r.heedAll before).cause? i = some q := by
  induction is generalizing r with
  | nil => simp [causes]
  | cons j is ih =>
    rw [causes, List.mem_append, Option.mem_toList, ih]
    constructor
    · rintro (hj | ⟨before, i, hp, hi⟩)
      · exact ⟨[], j, ⟨is, rfl⟩, hj⟩
      · exact ⟨j :: before, i, List.cons_prefix_cons.2 ⟨rfl, hp⟩, hi⟩
    · rintro ⟨before, i, hp, hi⟩
      cases before with
      | nil =>
        obtain rfl : i = j := (List.cons_prefix_cons.1 hp).1
        exact .inl hi
      | cons b before =>
        obtain ⟨rfl, hrest⟩ := List.cons_prefix_cons.1 hp
        exact .inr ⟨before, i, hrest, hi⟩

/-- Of all causes, the one that is met first stands first. -/
theorem take_causes {before : List TabInput} {i : TabInput} (hp : before ++ [i] <+: is)
    (hbefore : r.causes before = []) (hi : (r.heedAll before).cause? i = some q) :
    (r.causes is).take 1 = [q] := by
  obtain ⟨rest, rfl⟩ := hp
  rw [List.append_assoc, causes_append, hbefore, List.singleton_append, causes, hi]
  rfl

theorem watermark_heed_le (r : Replica) (i : TabInput) :
    r.watermark.number ≤ (r.heed i).watermark.number := by
  unfold heed
  split
  · exact r.watermark_apply_le _
  · exact Nat.le_refl _
  · exact Nat.le_refl _

theorem watermark_heedAll_le (r : Replica) (is : List TabInput) :
    r.watermark.number ≤ (r.heedAll is).watermark.number := by
  induction is generalizing r with
  | nil => exact Nat.le_refl _
  | cons i is ih => exact Nat.le_trans (r.watermark_heed_le i) (ih (r.heed i))

/-- An event that causes nothing is held from then on. -/
theorem held_of_no_cause (h : r.cause? (.message (.sync e)) = none) :
    e.changeId.number ≤ (r.heed (.message (.sync e))).watermark.number := by
  unfold cause? at h
  dsimp only [heed]
  rcases r.apply_cases e with ⟨hle, ha⟩ | ⟨_, _, ha⟩ | ⟨_, _, ha⟩
  · rw [ha]
    exact hle
  · simp [ha] at h
  · rw [ha]

theorem held_of_no_causes (h : r.causes is = []) (he : .message (.sync e) ∈ is) :
    e.changeId.number ≤ (r.heedAll is).watermark.number := by
  induction is generalizing r with
  | nil => simp at he
  | cons i is ih =>
    rw [causes, List.append_eq_nil_iff, Option.toList_eq_nil_iff] at h
    rcases List.mem_cons.1 he with rfl | he
    · exact Nat.le_trans (held_of_no_cause h.1) (watermark_heedAll_le ..)
    · exact ih h.2 he

end Replica

namespace Tab

variable {t : Tab} {i : TabInput} {r : ReloadReason}

/-- A tab's reasons to start over are the causes that its replica knows. -/
theorem reason_iff : t.Reason i r ↔ t.replica.cause? i = some r := by
  constructor
  · intro h
    cases h with
    | dead => rfl
    | @drift e h =>
      obtain ⟨expected, got, h⟩ := h
      unfold Replica.cause?
      dsimp only
      rcases t.replica.apply_cases e with ⟨_, ha⟩ | ⟨_, _, ha⟩ | ⟨_, _, ha⟩
      · simp [ha] at h
      · rw [ha]
      · simp [ha] at h
    | unauthorized w => rfl
  · intro h
    unfold Replica.cause? at h
    split at h
    · rename_i e
      rcases t.replica.apply_cases e with ⟨_, ha⟩ | ⟨_, _, ha⟩ | ⟨_, _, ha⟩
      · simp [ha] at h
      · obtain rfl : .drift t.replica.watermark.next e.changeId = r := by simpa [ha] using h
        exact .drift ⟨_, _, congrArg Prod.snd ha⟩
      · simp [ha] at h
    · unfold TabInput.ownCause? at h
      split at h
      · obtain rfl := Option.some.inj h
        exact .dead
      · obtain rfl := Option.some.inj h
        exact .unauthorized _
      · simp at h

/-! ## The law -/

/-- A tab that starts from a snapshot asks to start over if and only if it met a reason to,
once at most, and for the reason that it met first. Until it asks, it holds every event that
it was told of. -/
theorem a_tab_starts_over_once_and_for_the_first_reason (s : Snapshot) (is : List TabInput) :
    let t := ofSnapshot s
    let asked := reloads (t.run is).2
    (asked ≠ [] ↔ ∃ before i r, before ++ [i] <+: is ∧ (t.run before).1.Reason i r) ∧
    asked.length ≤ 1 ∧
    (∀ before i r, before ++ [i] <+: is → (t.run before).1.Reason i r →
      (∀ earlier j q, earlier ++ [j] <+: before → ¬ (t.run earlier).1.Reason j q) →
        asked = [r]) ∧
    ∀ e, .message (.sync e) ∈ is → (t.run is).1.replica.watermark < e.changeId → asked ≠ [] := by
  intro t asked
  have hasked : asked = (t.replica.causes is).take 1 := t.run_reloads is
  have hempty : asked = [] ↔ t.replica.causes is = [] := by
    rw [hasked]
    cases t.replica.causes is <;> simp
  simp only [reason_iff, run_replica]
  refine ⟨?_, ?_, fun before i r hp hi hfirst => ?_, fun e he hbeyond hnone => ?_⟩
  · rw [ne_eq, hempty, List.eq_nil_iff_forall_not_mem]
    simp only [Replica.mem_causes, not_forall, not_not]
    constructor
    · rintro ⟨r, before, i, hp, hi⟩
      exact ⟨before, i, r, hp, hi⟩
    · rintro ⟨before, i, r, hp, hi⟩
      exact ⟨r, before, i, hp, hi⟩
  · rw [hasked]
    exact List.length_take_le ..
  · rw [hasked]
    refine Replica.take_causes hp ?_ hi
    refine List.eq_nil_iff_forall_not_mem.2 fun q hq => ?_
    obtain ⟨earlier, j, hp', hj⟩ := Replica.mem_causes.1 hq
    exact hfirst earlier j q hp' hj
  · have hheld := Replica.held_of_no_causes (hempty.1 hnone) he
    rw [ChangeId.lt_iff_number] at hbeyond
    omega

/-- The next change comes, then one that skips another; then the session is over, and at last
the stream is dead. -/
def stormyDay : List TabInput :=
  [.message (.sync ⟨⟨5⟩, .deletePuzzle ⟨1⟩⟩), .message (.sync ⟨⟨7⟩, .deletePuzzle ⟨2⟩⟩),
    .settled { request := .deletePuzzle ⟨3⟩ } (.error (.server .unauthorized)),
    .message (.status .dead)]

/-- There are three reasons, and the skipped change is the one that counts. -/
theorem the_skipped_change_is_the_reason :
    let t := ofSnapshot { changeId := ⟨4⟩ }
    (t.run (stormyDay.take 1)).1.Reason stormyDay[1] (.drift ⟨6⟩ ⟨7⟩) ∧
    t.replica.causes stormyDay = [.drift ⟨6⟩ ⟨7⟩, .unauthorized, .dead] ∧
    reloads (t.run stormyDay).2 = [.drift ⟨6⟩ ⟨7⟩] := by
  intro t
  have hreason : (t.run (stormyDay.take 1)).1.Reason stormyDay[1] (.drift ⟨6⟩ ⟨7⟩) :=
    reason_iff.2 (by decide)
  refine ⟨hreason, by decide, ?_⟩
  obtain ⟨-, -, hfirst, -⟩ :=
    a_tab_starts_over_once_and_for_the_first_reason { changeId := ⟨4⟩ } stormyDay
  refine hfirst _ _ _ ⟨stormyDay.drop 2, rfl⟩ hreason fun earlier j q hp hj => ?_
  have hnone : t.replica.causes (stormyDay.take 1) = [] := by decide
  rw [reason_iff, run_replica] at hj
  have hmet : q ∈ t.replica.causes (stormyDay.take 1) := Replica.mem_causes.2 ⟨earlier, j, hp, hj⟩
  rw [hnone] at hmet
  exact List.not_mem_nil hmet

end Tab

end HuntBoard
