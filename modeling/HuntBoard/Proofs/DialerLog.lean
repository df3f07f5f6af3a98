-- The log of a dialer: which attempts it began, and which of the outcomes that it was told it took
-- notice of. What comes late, twice or of an attempt that never began leaves no trace, and a dead
-- dialer takes notice of nothing.
import HuntBoard.Proofs.Dialing
import Mathlib.Algebra.Group.Nat.Defs
import Mathlib.Data.List.Induction

namespace HuntBoard

namespace Dialer

/-! ## Calls and the log -/

/-- What a dialer is asked or told. -/
inductive Call where
  | begin
  | opened (a : Attempt)
  | failed (a : Attempt) (f : Failure)
  deriving DecidableEq

/-- What a dialer takes notice of. -/
inductive Entry where
  | began (a : Attempt)
  | opened (a : Attempt)
  /-- An attempt or its connection ended, and this is to be done next. -/
  | failed (a : Attempt) (f : Failure) (next : Retry)
  deriving DecidableEq

def Entry.attempt : Entry → Attempt
  | began a | opened a | failed a _ _ => a

def Entry.begun? : Entry → Option Attempt
  | began a => some a
  | _ => none

/-- The attempts that began, in order. -/
def begun (log : List Entry) : List Attempt := log.filterMap Entry.begun?

/-- What a log tells of one attempt. -/
def about (a : Attempt) (log : List Entry) : List Entry := log.filter (·.attempt = a)

/-- A dialer after a call, and what the call adds to its log: nothing when it is refused. -/
def take (d : Dialer) : Call → Dialer × List Entry
  | .begin => (d.begin.1, (d.begin.2.map .began).toList)
  | .opened a => ((d.opened a).1, if (d.opened a).2 then [.opened a] else [])
  | .failed a f => ((d.failed a f).1, ((d.failed a f).2.map (.failed a f)).toList)

/-- A new dialer after calls, and its log. -/
def run (b : Backoff) (calls : List Call) : Dialer × List Entry :=
  calls.foldl (fun o c => ((o.1.take c).1, o.2 ++ (o.1.take c).2)) (ofBackoff b, [])

section

variable (b : Backoff) (calls : List Call) (c : Call) (log : List Entry) (e : Entry)

theorem run_concat : run b (calls ++ [c]) =
    (((run b calls).1.take c).1, (run b calls).2 ++ ((run b calls).1.take c).2) := by
  unfold run
  rw [List.foldl_append]
  rfl

theorem begun_concat : begun (log ++ [e]) = begun log ++ e.begun?.toList := by
  unfold begun
  rw [List.filterMap_append]
  cases e <;> rfl

theorem mem_begun {a : Attempt} {log : List Entry} (ha : a ∈ begun log) :
    .began a ∈ log := by
  obtain ⟨e, he, hea⟩ := List.mem_filterMap.1 ha
  cases e with
  | began a' => exact Option.some.inj hea ▸ he
  | opened => simp [Entry.begun?] at hea
  | failed => simp [Entry.begun?] at hea

theorem about_concat_self : about e.attempt (log ++ [e]) = about e.attempt log ++ [e] := by
  simp [about, List.filter_append]

theorem about_concat_of_ne {a : Attempt} (ha : e.attempt ≠ a) :
    about a (log ++ [e]) = about a log := by
  simp [about, List.filter_append, ha]

end

/-! ## One call -/

/-- What a call may come to. Only the attempt in progress opens, only it and the connection that it
made fail, and only when its events are gone is the stream dead. -/
inductive Took (d : Dialer) : Call → Dialer × List Entry → Prop
  | refused (c : Call) : Took d c (d, [])
  | began (hd : d.phase ≠ .dead) :
    Took d .begin ({ d with phase := .connecting d.nextAttempt, nextAttempt := d.nextAttempt + 1 },
      [.began d.nextAttempt])
  | opened (a : Attempt) (ha : d.phase = .connecting a) :
    Took d (.opened a) ({ d with phase := .connected a, backoff := d.backoff.reset }, [.opened a])
  | ended (a : Attempt) (f : Failure) (next : Retry) (ha : d.phase.attempt? = some a)
    (hf : ∀ reason, f ≠ .closed replayGoneCode reason)
    (hnext : next = .now ∨ next = .after d.backoff.current) :
    Took d (.failed a f) ({ d with phase := .idle, backoff := d.backoff.grow }, [.failed a f next])
  | died (a : Attempt) (reason : String) (ha : d.phase.attempt? = some a) :
    Took d (.failed a (.closed replayGoneCode reason))
      ({ d with phase := .dead }, [.failed a (.closed replayGoneCode reason) .never])

theorem took (d : Dialer) (c : Call) : d.Took c (d.take c) := by
  cases c with
  | begin =>
    by_cases hd : d.isDead
    · simp only [take, begin_of_dead hd]
      exact .refused _
    · simp only [take, begin_of_alive hd]
      exact .began fun hdead => hd (isDead_iff.2 hdead)
  | opened a =>
    by_cases ha : d.phase = .connecting a
    · simp only [take, opened_of_connecting ha]
      exact .opened a ha
    · simp only [take, opened_of_not_connecting ha]
      exact .refused _
  | failed a f =>
    have hfails := d.fails a f
    simp only [take]
    generalize d.failed a f = o at hfails
    cases hfails with
    | late => exact .refused _
    | died reason ha => exact .died a reason ha
    | ended _ next ha hf hnext => exact .ended a f next ha hf hnext

theorem take_of_dead {d : Dialer} (hd : d.isDead) (c : Call) : d.take c = (d, []) := by
  have hnone : ∀ a, d.phase.attempt? ≠ some a := by
    intro a
    rw [isDead_iff.1 hd]
    exact Option.some_ne_none a ∘ Eq.symm
  cases c with
  | begin => simp [take, begin_of_dead hd]
  | opened a => simp [take, (inert_of_not_current (hnone a)).1]
  | failed a f => simp [take, (inert_of_not_current (hnone a)).2 f]

/-! ## The dialer and its log -/

/-- How a dialer stands to its log. The log tells of no attempt that is still to begin, of the one
that is current just how far it is, and of the others nothing twice. -/
structure Logged (d : Dialer) (log : List Entry) : Prop where
  below : ∀ e ∈ log, e.attempt < d.nextAttempt
  increasing : (begun log).Pairwise (· < ·)
  latest {a : Attempt} (ha : d.phase.attempt? = some a) : (begun log).getLast? = some a
  connecting {a : Attempt} (ha : d.phase = .connecting a) : about a log = [.began a]
  connected {a : Attempt} (ha : d.phase = .connected a) : about a log = [.began a, .opened a]
  told (a : Attempt) : ∃ f next, (about a log).Sublist [.began a, .opened a, .failed a f next]

theorem logged_ofBackoff (b : Backoff) : (ofBackoff b).Logged [] where
  below := by simp
  increasing := .nil
  latest ha := absurd ha (by simp [ofBackoff, Phase.attempt?])
  connecting ha := Phase.noConfusion ha
  connected ha := Phase.noConfusion ha
  told a := ⟨.timedOut, .now, List.nil_sublist _⟩

namespace Logged

variable {d : Dialer} {log : List Entry}

theorem lt_of_mem_begun (h : d.Logged log) {a : Attempt} (ha : a ∈ begun log) :
    a < d.nextAttempt :=
  h.below _ (mem_begun ha)

/-- Nothing is told of an attempt that is still to begin. -/
theorem about_nextAttempt (h : d.Logged log) : about d.nextAttempt log = [] := by
  unfold about
  rw [List.filter_eq_nil_iff]
  intro e he
  exact fun hsame => Nat.ne_of_lt (h.below e he) (of_decide_eq_true hsame)

/-- One entry more on the attempt that it is about leaves what is told of others. -/
theorem told_concat (h : d.Logged log) (e : Entry)
    (he : ∃ f next, (about e.attempt (log ++ [e])).Sublist
      [.began e.attempt, .opened e.attempt, .failed e.attempt f next]) (a : Attempt) :
    ∃ f next, (about a (log ++ [e])).Sublist [.began a, .opened a, .failed a f next] := by
  by_cases ha : e.attempt = a
  · exact ha ▸ he
  · rw [about_concat_of_ne log e ha]
    exact h.told a

theorem began (h : d.Logged log) :
    Logged { d with phase := .connecting d.nextAttempt, nextAttempt := d.nextAttempt + 1 }
      (log ++ [.began d.nextAttempt]) := by
  have habout : about d.nextAttempt (log ++ [.began d.nextAttempt]) = [.began d.nextAttempt] := by
    have hself := about_concat_self log (.began d.nextAttempt)
    rwa [Entry.attempt, h.about_nextAttempt] at hself
  have hbegun : begun (log ++ [.began d.nextAttempt]) = begun log ++ [d.nextAttempt] :=
    begun_concat ..
  refine ⟨?_, ?_, ?_, ?_, fun ha => Phase.noConfusion ha, ?_⟩
  · intro e he
    rcases List.mem_append.1 he with he | he
    · exact Nat.lt_succ_of_lt (h.below e he)
    · rw [List.mem_singleton.1 he]
      exact Nat.lt_succ_self _
  · rw [hbegun, List.pairwise_append]
    refine ⟨h.increasing, List.pairwise_singleton .., ?_⟩
    intro a ha b hb
    rw [List.mem_singleton.1 hb]
    exact h.lt_of_mem_begun ha
  · intro a ha
    rw [hbegun, List.getLast?_concat]
    exact ha
  · intro a ha
    obtain rfl := Phase.connecting.inj ha
    exact habout
  · apply h.told_concat
    refine ⟨.timedOut, .now, ?_⟩
    rw [Entry.attempt, habout]
    exact (List.nil_sublist _).cons_cons _

/-- The log goes on with an outcome of the attempt in progress. -/
theorem below_concat (h : d.Logged log) {a : Attempt} (ha : d.phase.attempt? = some a) {e : Entry}
    (he : e.attempt = a) : ∀ e' ∈ log ++ [e], e'.attempt < d.nextAttempt := by
  intro e' he'
  rcases List.mem_append.1 he' with he' | he'
  · exact h.below e' he'
  · rw [List.mem_singleton.1 he', he]
    exact h.lt_of_mem_begun (List.mem_of_getLast? (h.latest ha))

theorem opened (h : d.Logged log) {a : Attempt} (ha : d.phase = .connecting a) :
    Logged { d with phase := .connected a, backoff := d.backoff.reset } (log ++ [.opened a]) := by
  have hcurrent : d.phase.attempt? = some a := Phase.attempt?_eq_some_iff.2 (.inl ha)
  have habout : about a (log ++ [.opened a]) = [.began a, .opened a] := by
    have hself := about_concat_self log (.opened a)
    rwa [Entry.attempt, h.connecting ha] at hself
  have hbegun : begun (log ++ [.opened a]) = begun log := by
    rw [begun_concat]
    exact List.append_nil _
  refine ⟨h.below_concat hcurrent rfl, ?_, ?_, fun ha => Phase.noConfusion ha, ?_, ?_⟩
  · rw [hbegun]
    exact h.increasing
  · intro a' ha'
    rw [hbegun, h.latest hcurrent]
    exact ha'
  · intro a' ha'
    obtain rfl := Phase.connected.inj ha'
    exact habout
  · apply h.told_concat
    refine ⟨.timedOut, .now, ?_⟩
    rw [Entry.attempt, habout]
    exact ((List.nil_sublist _).cons_cons _).cons_cons _

/-- After a failure there is no attempt in progress, whether the stream is dead or not. -/
theorem failed (h : d.Logged log) {a : Attempt} (ha : d.phase.attempt? = some a) (f : Failure)
    (next : Retry) {d' : Dialer} (hphase : d'.phase.attempt? = none)
    (hnext : d'.nextAttempt = d.nextAttempt) : d'.Logged (log ++ [.failed a f next]) := by
  have hbegun : begun (log ++ [.failed a f next]) = begun log := by
    rw [begun_concat]
    exact List.append_nil _
  have hnot : ∀ a', d'.phase.attempt? ≠ some a' := by simp [hphase]
  refine ⟨?_, ?_, fun ha' => absurd ha' (hnot _), ?_, ?_, ?_⟩
  · rw [hnext]
    exact h.below_concat ha rfl
  · rw [hbegun]
    exact h.increasing
  · intro a' ha'
    exact absurd (Phase.attempt?_eq_some_iff.2 (.inl ha')) (hnot a')
  · intro a' ha'
    exact absurd (Phase.attempt?_eq_some_iff.2 (.inr ha')) (hnot a')
  · apply h.told_concat
    refine ⟨f, next, ?_⟩
    rw [about_concat_self, Entry.attempt]
    -- It was connecting and did not open, or it was connected.
    rcases Phase.attempt?_eq_some_iff.1 ha with hp | hp
    · rw [h.connecting hp]
      exact (List.sublist_cons_self _ _).cons_cons _
    · rw [h.connected hp]
      exact List.Sublist.refl _

theorem take (h : d.Logged log) (c : Call) : (d.take c).1.Logged (log ++ (d.take c).2) := by
  have htook := d.took c
  generalize d.take c = o at htook
  cases htook with
  | refused =>
    rw [List.append_nil]
    exact h
  | began => exact h.began
  | opened a ha => exact h.opened ha
  | ended a f next ha => exact h.failed ha f next rfl rfl
  | died a reason ha => exact h.failed ha _ _ rfl rfl

end Logged

/-! ## Whole runs -/

theorem logged_run (b : Backoff) (calls : List Call) : (run b calls).1.Logged (run b calls).2 := by
  induction calls using List.reverseRecOn with
  | nil => exact logged_ofBackoff b
  | append_singleton calls c ih =>
    rw [run_concat]
    exact ih.take c

/-- The next number is one more than the attempts that were asked for, or less. -/
theorem nextAttempt_le (b : Backoff) (calls : List Call) :
    (run b calls).1.nextAttempt ≤ calls.count .begin + 1 := by
  induction calls using List.reverseRecOn with
  | nil => exact Nat.le_refl _
  | append_singleton calls c ih =>
    rw [run_concat, List.count_append]
    have htook := (run b calls).1.took c
    generalize (run b calls).1.take c = o at htook
    cases htook with
    | began => exact Nat.succ_le_succ ih
    | refused | opened | ended | died =>
      exact Nat.le_trans ih (Nat.succ_le_succ (Nat.le_add_right _ _))

theorem run_append_of_dead {b : Backoff} {calls : List Call} (hd : (run b calls).1.isDead)
    (more : List Call) : run b (calls ++ more) = run b calls := by
  induction more using List.reverseRecOn with
  | nil => rw [List.append_nil]
  | append_singleton more c ih =>
    rw [← List.append_assoc, run_concat, ih, take_of_dead hd, List.append_nil]

/-- A stream dies of the close of the attempt in progress, and of nothing else. -/
theorem isDead_run_iff (b : Backoff) (calls : List Call) :
    (run b calls).1.isDead ↔ ∃ before a reason after,
      calls = before ++ .failed a (.closed replayGoneCode reason) :: after ∧
      (run b before).1.phase.attempt? = some a := by
  constructor
  · induction calls using List.reverseRecOn with
    | nil => exact fun hd => Phase.noConfusion (isDead_iff.1 hd)
    | append_singleton calls c ih =>
      intro hd
      by_cases halive : (run b calls).1.isDead
      · obtain ⟨before, a, reason, after, rfl, ha⟩ := ih halive
        exact ⟨before, a, reason, after ++ [c], by simp, ha⟩
      · rw [run_concat, isDead_iff] at hd
        have htook := (run b calls).1.took c
        generalize (run b calls).1.take c = o at htook hd
        cases htook with
        | refused => exact absurd (isDead_iff.2 hd) halive
        | began => exact Phase.noConfusion hd
        | opened => exact Phase.noConfusion hd
        | ended => exact Phase.noConfusion hd
        | died a reason ha => exact ⟨calls, a, reason, [], rfl, ha⟩
  · rintro ⟨before, a, reason, after, rfl, ha⟩
    have hdead : (run b (before ++ [.failed a (.closed replayGoneCode reason)])).1.isDead := by
      rw [run_concat, isDead_iff]
      simp only [Dialer.take, failed_of_gone ha]
    rw [List.append_cons, run_append_of_dead hdead]
    exact hdead

/-- An outcome of any attempt but the one that began last is refused and changes nothing. Of each
attempt a dialer notes that it began, that it opened and that it failed, each once at most and in
this order. Each attempt has a greater number than those before it, and it takes as many attempts
as there are numbers of 64 bits to run out of them. The stream is dead when the attempt in progress
is closed because its events are gone, and at no other time; then no attempt begins any more, and
no call changes anything. -/
theorem late_outcomes_are_inert_and_death_is_final (b : Backoff) (calls : List Call) :
    let d := (run b calls).1
    let log := (run b calls).2
    (∀ a, (begun log).getLast? ≠ some a →
      d.opened a = (d, false) ∧ ∀ f, d.failed a f = (d, none)) ∧
    (∀ a, ∃ f next, (about a log).Sublist [.began a, .opened a, .failed a f next]) ∧
    (begun log).Pairwise (· < ·) ∧
    (¬ d.isDead → ∃ a, d.begin.2 = some a ∧ ∀ a' ∈ begun log, a' < a) ∧
    (calls.count .begin < 2 ^ 64 → ∀ a ∈ begun log, a < 2 ^ 64) ∧
    (d.isDead ↔ ∃ before a reason after,
      calls = before ++ .failed a (.closed replayGoneCode reason) :: after ∧
      (run b before).1.phase.attempt? = some a) ∧
    (d.isDead → d.begin = (d, none) ∧ ∀ more, run b (calls ++ more) = run b calls) := by
  intro d log
  have h : d.Logged log := logged_run b calls
  refine ⟨?_, h.told, h.increasing, ?_, ?_, isDead_run_iff b calls, ?_⟩
  · intro a hlate
    exact inert_of_not_current fun ha => hlate (h.latest ha)
  · intro halive
    refine ⟨d.nextAttempt, ?_, fun a' ha' => h.lt_of_mem_begun ha'⟩
    rw [begin_of_alive halive]
  · intro hcount a ha
    have hle : a ≤ calls.count .begin :=
      Nat.le_of_lt_succ (Nat.lt_of_lt_of_le (h.lt_of_mem_begun ha) (nextAttempt_le b calls))
    exact Nat.lt_of_le_of_lt hle hcount
  · intro hd
    exact ⟨begin_of_dead hd, run_append_of_dead hd⟩

def twoDials : List Call := [.begin, .begin]

/-- The first of two attempts opens and is closed too late, the second in time. -/
def lastStand : List Call :=
  twoDials ++ [.opened 1, .failed 1 (.closed replayGoneCode "gone"), .opened 2,
    .failed 2 (.closed replayGoneCode "gone")]

/-- After two calls only the second attempt counts. When it is closed the stream is dead, and the
log has no trace of what came of the first. -/
theorem the_second_attempt_was_the_last :
    let early := (run default twoDials).1
    let d := (run default lastStand).1
    ¬ early.isDead ∧ (∃ a, early.begin.2 = some a ∧ ∀ a' ∈ [1, 2], a' < a) ∧
    (begun (run default twoDials).2).getLast? ≠ some 1 ∧ early.opened 1 = (early, false) ∧
    (run default lastStand).2 =
      [.began 1, .began 2, .opened 2, .failed 2 (.closed replayGoneCode "gone") .never] ∧
    lastStand.count .begin < 2 ^ 64 ∧ (∀ a ∈ begun (run default lastStand).2, a < 2 ^ 64) ∧
    d.isDead ∧ d.begin = (d, none) ∧
    ∀ more, run default (lastStand ++ more) = run default lastStand := by
  intro early d
  obtain ⟨hlate, -, -, hnext, -⟩ := late_outcomes_are_inert_and_death_is_final default twoDials
  obtain ⟨-, -, -, -, hsmall, hdead, hfinal⟩ :=
    late_outcomes_are_inert_and_death_is_final default lastStand
  have halive : ¬ (run default twoDials).1.isDead := by decide
  have hfirst : (begun (run default twoDials).2).getLast? ≠ some 1 := by decide
  have hcount : lastStand.count .begin < 2 ^ 64 := by decide
  have hgone : d.isDead := hdead.2
    ⟨twoDials ++ [.opened 1, .failed 1 (.closed replayGoneCode "gone"), .opened 2], 2, "gone", [],
      rfl, by decide⟩
  exact ⟨halive, hnext halive, hfirst, (hlate 1 hfirst).1, rfl, hcount, hsmall hcount, hgone,
    hfinal hgone⟩

end Dialer

end HuntBoard
