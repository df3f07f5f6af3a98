-- What one call does to a dialer. Only the attempt in progress opens; only that attempt, or the
-- connection that it made, fails; and one that is dead begins nothing.
import HuntBoard.Dialer

namespace HuntBoard

theorem Phase.attempt?_eq_some_iff {p : Phase} {a : Attempt} :
    p.attempt? = some a ↔ p = .connecting a ∨ p = .connected a := by
  cases p <;> simp [attempt?]

namespace Dialer

variable {d d' : Dialer} {a : Attempt} {f : Failure} {next : Retry}

/-! ## Beginning and opening -/

theorem isDead_iff : d.isDead ↔ d.phase = .dead := by
  simp [isDead]

theorem begin_of_dead (hd : d.isDead) : d.begin = (d, none) := by
  unfold begin
  rw [if_pos hd]

theorem begin_of_alive (hd : ¬ d.isDead) :
    d.begin =
      ({ d with phase := .connecting d.nextAttempt, nextAttempt := d.nextAttempt + 1 },
        some d.nextAttempt) := by
  unfold begin
  rw [if_neg hd]

theorem opened_of_connecting (ha : d.phase = .connecting a) :
    d.opened a = ({ d with phase := .connected a, backoff := d.backoff.reset }, true) := by
  unfold opened
  rw [if_pos ha]

theorem opened_of_not_connecting (ha : d.phase ≠ .connecting a) : d.opened a = (d, false) := by
  unfold opened
  rw [if_neg ha]

theorem opened_nextAttempt (d : Dialer) (a : Attempt) :
    (d.opened a).1.nextAttempt = d.nextAttempt := by
  unfold opened
  split <;> rfl

/-! ## Failing -/

/-- What a failure may come to. It is too late; or the events are gone, and the stream is dead; or
the delay grows, and the next attempt comes at once or after the delay that was. -/
inductive Fails (d : Dialer) (a : Attempt) : Failure → Dialer × Option Retry → Prop
  | late (f : Failure) (ha : d.phase.attempt? ≠ some a) : Fails d a f (d, none)
  | died (reason : String) (ha : d.phase.attempt? = some a) :
    Fails d a (.closed replayGoneCode reason) ({ d with phase := .dead }, some .never)
  | ended (f : Failure) (next : Retry) (ha : d.phase.attempt? = some a)
    (hf : ∀ reason, f ≠ .closed replayGoneCode reason)
    (hnext : next = .now ∨ next = .after d.backoff.current) :
    Fails d a f ({ d with phase := .idle, backoff := d.backoff.grow }, some next)

theorem fails (d : Dialer) (a : Attempt) (f : Failure) : d.Fails a f (d.failed a f) := by
  unfold failed
  split
  · rename_i ha
    cases f with
    | closed code reason =>
      dsimp only
      split
      · rename_i hcode
        rw [hcode]
        exact .died reason ha
      · rename_i hcode
        exact .ended _ _ ha (fun _ h => hcode (Failure.closed.inj h).1) (.inr rfl)
    | error message => exact .ended _ _ ha (fun _ => Failure.noConfusion) (.inr rfl)
    | timedOut => exact .ended _ _ ha (fun _ => Failure.noConfusion) (.inl rfl)
  · rename_i ha
    exact .late f ha

theorem failed_nextAttempt (d : Dialer) (a : Attempt) (f : Failure) :
    (d.failed a f).1.nextAttempt = d.nextAttempt := by
  have hfails := d.fails a f
  generalize d.failed a f = o at hfails
  cases hfails <;> rfl

/-- The dialer has an answer to the end of the attempt in progress. -/
theorem failed_of_current (ha : d.phase.attempt? = some a) (f : Failure) :
    ∃ d' next, d.failed a f = (d', some next) := by
  have hfails := d.fails a f
  generalize d.failed a f = o at hfails
  cases hfails with
  | late _ hlate => exact absurd ha hlate
  | died => exact ⟨_, _, rfl⟩
  | ended => exact ⟨_, _, rfl⟩

theorem failed_of_gone (ha : d.phase.attempt? = some a) (reason : String) :
    d.failed a (.closed replayGoneCode reason) = ({ d with phase := .dead }, some .never) := by
  have hfails := d.fails a (.closed replayGoneCode reason)
  generalize d.failed a (.closed replayGoneCode reason) = o at hfails
  cases hfails with
  | late _ hlate => exact absurd ha hlate
  | died => rfl
  | ended _ _ _ hf => exact absurd rfl (hf reason)

/-- The stream is dead and there is no retry, or the dialer is idle and there is one. -/
theorem failed_cases (h : d.failed a f = (d', some next)) :
    d'.phase = .dead ∧ next = .never ∨ d'.phase = .idle ∧ next = .now ∨
      d'.phase = .idle ∧ ∃ delay, next = .after delay := by
  have hfails := d.fails a f
  rw [h] at hfails
  cases hfails with
  | died => exact .inl ⟨rfl, rfl⟩
  | ended _ _ _ _ hnext =>
    rcases hnext with rfl | rfl
    · exact .inr (.inl ⟨rfl, rfl⟩)
    · exact .inr (.inr ⟨rfl, _, rfl⟩)

/-- Once the attempt in progress has failed, there is none. -/
theorem failed_attempt? (h : d.failed a f = (d', some next)) : d'.phase.attempt? = none := by
  rcases failed_cases h with ⟨hp, -⟩ | ⟨hp, -⟩ | ⟨hp, -⟩ <;> rw [hp] <;> rfl

/-- An attempt that is not in progress and has no connection can neither open nor fail. -/
theorem inert_of_not_current (ha : d.phase.attempt? ≠ some a) :
    d.opened a = (d, false) ∧ ∀ f, d.failed a f = (d, none) := by
  constructor
  · exact opened_of_not_connecting fun hp => ha (Phase.attempt?_eq_some_iff.2 (.inl hp))
  · intro f
    unfold failed
    rw [if_neg ha]

end Dialer

end HuntBoard
