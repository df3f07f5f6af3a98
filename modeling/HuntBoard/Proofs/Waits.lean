-- How long a dialer waits. The delay doubles with every failure since the last connection, from its
-- floor to its ceiling, and a clock that keeps seconds and nanoseconds has room for it and for its
-- double.
import HuntBoard.Proofs.DialerLog
import Mathlib.Data.List.DropRight

namespace HuntBoard

/-! ## Spans of time -/

/-- A span of time as a clock keeps it: whole seconds, and nanoseconds below one second. -/
structure Span where
  seconds : UInt64
  nanos : Fin 1000000000
  deriving DecidableEq

namespace Span

/-- All of a span in nanoseconds. -/
def total (s : Span) : Nat := s.seconds.toNat * 1000000000 + s.nanos

def ofMillis (ms : UInt64) : Span :=
  ⟨ms / 1000, ⟨ms.toNat % 1000 * 1000000, by omega⟩⟩

/-- Twice a span, if its seconds can be kept. -/
def twice? (s : Span) : Option Span :=
  let nanos := 2 * s.nanos.val
  let seconds := 2 * s.seconds.toNat + nanos / 1000000000
  if seconds < UInt64.size then
    some ⟨UInt64.ofNat seconds, ⟨nanos % 1000000000, Nat.mod_lt _ (by decide)⟩⟩
  else none

/-- Spans are compared by their seconds first. -/
def isAtMost (s t : Span) : Bool :=
  s.seconds < t.seconds || s.seconds == t.seconds && s.nanos ≤ t.nanos

/-- The shorter of two spans. -/
def shorter (s t : Span) : Span := if s.isAtMost t then s else t

/-- The longer of two spans. -/
def longer (s t : Span) : Span := if s.isAtMost t then t else s

theorem total_ofMillis (ms : UInt64) : (ofMillis ms).total = ms.toNat * 1000000 := by
  have hseconds : (ms / 1000).toNat = ms.toNat / 1000 := UInt64.toNat_div ..
  simp only [total, ofMillis, hseconds]
  omega

/-- A span can be doubled unless that is more than the seconds can hold. -/
theorem twice?_eq_none_iff (s : Span) :
    s.twice? = none ↔ UInt64.size * 1000000000 ≤ 2 * s.total := by
  have hnanos := s.nanos.isLt
  unfold twice? total
  dsimp only
  split
  · simp only [reduceCtorEq, false_iff]
    omega
  · simp only [true_iff]
    omega

theorem total_of_twice? {s t : Span} (h : s.twice? = some t) : t.total = 2 * s.total := by
  unfold twice? at h
  dsimp only at h
  split at h
  · rename_i hfits
    obtain rfl := Option.some.inj h
    simp only [total, UInt64.toNat_ofNat_of_lt' hfits]
    omega
  · simp at h

/-- There are spans that cannot be doubled. -/
example : (Span.mk 9223372036854775807 999999999).twice?.isSome ∧
    (Span.mk 9223372036854775808 0).twice? = none := by decide

theorem isAtMost_iff (s t : Span) : s.isAtMost t ↔ s.total ≤ t.total := by
  have hs := s.nanos.isLt
  have ht := t.nanos.isLt
  simp only [isAtMost, total, Bool.or_eq_true, Bool.and_eq_true, decide_eq_true_eq, beq_iff_eq,
    UInt64.lt_iff_toNat_lt, ← UInt64.toNat_inj, Fin.le_def]
  omega

theorem total_shorter (s t : Span) : (s.shorter t).total = min s.total t.total := by
  unfold shorter
  split <;> rename_i h <;> rw [isAtMost_iff] at h <;> omega

theorem total_longer (s t : Span) : (s.longer t).total = max s.total t.total := by
  unfold longer
  split <;> rename_i h <;> rw [isAtMost_iff] at h <;> omega

end Span

/-! ## The delay of a clock -/

/-- A growing delay in spans of a clock. -/
structure ClockBackoff where
  floor : Span
  ceiling : Span
  current : Span
  deriving DecidableEq

namespace ClockBackoff

def between (floor ceiling : Span) : ClockBackoff := ⟨floor, ceiling.longer floor, floor⟩

/-- The delay after this one, if the clock has room for its double. -/
def grow? (t : ClockBackoff) : Option ClockBackoff :=
  t.current.twice?.map fun s => { t with current := s.shorter t.ceiling }

def reset (t : ClockBackoff) : ClockBackoff := { t with current := t.floor }

/-- What an entry in the log of a dialer does to the delay. -/
def follow? (t : ClockBackoff) : Dialer.Entry → Option ClockBackoff
  | .opened _ => some t.reset
  | .failed _ _ .now | .failed _ _ (.after _) => t.grow?
  | .began _ | .failed _ _ .never => some t

/-- The delay after a log, if the clock has room all along. -/
def followAll? (t : ClockBackoff) (log : List Dialer.Entry) : Option ClockBackoff :=
  log.foldlM follow? t

theorem followAll?_concat (t : ClockBackoff) (log : List Dialer.Entry) (e : Dialer.Entry) :
    t.followAll? (log ++ [e]) = (t.followAll? log).bind fun t => t.follow? e := by
  simp [followAll?, List.foldlM_append]

/-- A clock keeps the delay that is told in milliseconds. -/
structure Measures (t : ClockBackoff) (b : Backoff) : Prop where
  floor : t.floor.total = b.floor * 1000000
  ceiling : t.ceiling.total = b.ceiling * 1000000
  current : t.current.total = b.current * 1000000

theorem measures_between (floor ceiling : UInt64) :
    (between (.ofMillis floor) (.ofMillis ceiling)).Measures
      (.between floor.toNat ceiling.toNat) where
  floor := Span.total_ofMillis floor
  ceiling := by
    simp only [between, Backoff.between, Span.total_longer, Span.total_ofMillis]
    omega
  current := Span.total_ofMillis floor

namespace Measures

variable {t : ClockBackoff} {b : Backoff}

theorem reset (h : t.Measures b) : t.reset.Measures b.reset := ⟨h.floor, h.ceiling, h.floor⟩

/-- Milliseconds of 64 bits can be doubled, since a clock keeps as many seconds. -/
theorem grow (h : t.Measures b) (hfits : b.current < UInt64.size) :
    ∃ t', t.grow? = some t' ∧ t'.Measures b.grow := by
  have hcurrent := h.current
  have hceiling := h.ceiling
  cases htwice : t.current.twice? with
  | none =>
    have hover := t.current.twice?_eq_none_iff.1 htwice
    omega
  | some s =>
    have htotal := Span.total_of_twice? htwice
    refine ⟨{ t with current := s.shorter t.ceiling }, by rw [grow?, htwice]; rfl, h.floor,
      h.ceiling, ?_⟩
    simp only [Backoff.grow, Span.total_shorter, htotal]
    omega

end Measures

end ClockBackoff

namespace Dialer

/-! ## Failures in a row -/

def Entry.isOpened : Entry → Bool
  | opened _ => true
  | _ => false

def Entry.isFailed : Entry → Bool
  | failed _ _ _ => true
  | _ => false

/-- How often an attempt or its connection failed since an attempt opened last, or since the
start. -/
def failuresInARow (log : List Entry) : Nat :=
  (log.rtakeWhile (!·.isOpened)).countP Entry.isFailed

theorem failuresInARow_concat (log : List Entry) (e : Entry) :
    failuresInARow (log ++ [e]) =
      if e.isOpened then 0 else failuresInARow log + e.isFailed.toNat := by
  unfold failuresInARow
  rw [List.rtakeWhile_concat]
  cases e <;> simp [Entry.isOpened, Entry.isFailed]

/-! ## Outcomes that come too late -/

theorem take_opened_of_late {d : Dialer} {a : Attempt} (ha : (d.opened a).2 = false) :
    d.take (.opened a) = (d, []) := by
  by_cases hp : d.phase = .connecting a
  · rw [opened_of_connecting hp] at ha
    simp at ha
  · simp [take, opened_of_not_connecting hp]

theorem take_failed_of_late {d : Dialer} {a : Attempt} {f : Failure}
    (hf : (d.failed a f).2 = none) : d.take (.failed a f) = (d, []) := by
  have hfails := d.fails a f
  simp only [take]
  generalize d.failed a f = o at hfails hf
  cases hfails with
  | late => rfl
  | died => simp at hf
  | ended => simp at hf

theorem run_concat_of_late {b : Backoff} {calls : List Call} {c : Call}
    (hc : (run b calls).1.take c = ((run b calls).1, [])) : run b (calls ++ [c]) = run b calls := by
  rw [run_concat, hc, List.append_nil]

/-! ## The delay along a run -/

theorem not_isDead_of_attempt? {d : Dialer} {a : Attempt} (ha : d.phase.attempt? = some a) :
    ¬ d.isDead := by
  intro hdead
  rw [isDead_iff.1 hdead] at ha
  simp [Phase.attempt?] at ha

/-- How the delay of a dialer stands to its log. It is what so many doublings make of the floor, up
to the ceiling; and until the stream is dead, it is as many as there are failures in a row. -/
structure Paced (floor ceiling : Nat) (d : Dialer) (log : List Entry) : Prop where
  base : d.backoff.floor = floor
  top : d.backoff.ceiling = max floor ceiling
  current : ∃ k, d.backoff.current = min (floor * 2 ^ k) (max floor ceiling) ∧
    (¬ d.isDead → k = failuresInARow log)

namespace Paced

variable {floor ceiling : Nat} {d : Dialer} {log : List Entry}

theorem floor_le (h : Paced floor ceiling d log) : floor ≤ d.backoff.current := by
  obtain ⟨k, hk, -⟩ := h.current
  have hpos : floor ≤ floor * 2 ^ k := Nat.le_mul_of_pos_right _ (Nat.two_pow_pos k)
  omega

theorem le_top (h : Paced floor ceiling d log) : d.backoff.current ≤ max floor ceiling := by
  obtain ⟨k, hk, -⟩ := h.current
  omega

theorem current_eq (h : Paced floor ceiling d log) (halive : ¬ d.isDead) :
    d.backoff.current = min (floor * 2 ^ failuresInARow log) (max floor ceiling) := by
  obtain ⟨k, hk, hcount⟩ := h.current
  rw [hk, hcount halive]

/-- The delay that a failure is answered with is the one from before it. -/
theorem delay_eq (h : Paced floor ceiling d log) {a : Attempt} {f : Failure} {delay : Nat}
    (hdelay : (d.failed a f).2 = some (.after delay)) :
    delay = min (floor * 2 ^ failuresInARow log) (max floor ceiling) := by
  have hfails := d.fails a f
  generalize d.failed a f = o at hfails hdelay
  cases hfails with
  | late => simp at hdelay
  | died => simp at hdelay
  | ended f next ha hf hnext =>
    obtain rfl := Option.some.inj hdelay
    rcases hnext with hnext | hnext
    · simp at hnext
    · have hcurrent := h.current_eq (not_isDead_of_attempt? ha)
      rw [← hcurrent]
      exact Retry.after.inj hnext

theorem ofBackoff (floor ceiling : Nat) :
    Paced floor ceiling (ofBackoff (.between floor ceiling)) [] where
  base := rfl
  top := Nat.max_comm ..
  current := by
    refine ⟨0, ?_, fun _ => rfl⟩
    simp only [Dialer.ofBackoff, Backoff.between]
    omega

/-- One failure more doubles the delay, as far as the ceiling allows. -/
theorem grow (h : Paced floor ceiling d log) (halive : ¬ d.isDead) :
    d.backoff.grow.current =
      min (floor * 2 ^ (failuresInARow log + 1)) (max floor ceiling) := by
  have htop := h.top
  have hcurrent := h.current_eq halive
  have hpow : floor * 2 ^ (failuresInARow log + 1) = 2 * (floor * 2 ^ failuresInARow log) := by
    rw [Nat.pow_succ, ← Nat.mul_assoc, Nat.mul_comm]
  simp only [Backoff.grow]
  omega

theorem take (h : Paced floor ceiling d log) (c : Call) :
    Paced floor ceiling (d.take c).1 (log ++ (d.take c).2) := by
  have htook := d.took c
  generalize d.take c = o at htook
  cases htook with
  | refused =>
    rw [List.append_nil]
    exact h
  | began hd =>
    refine ⟨h.base, h.top, ?_⟩
    obtain ⟨k, hk, hcount⟩ := h.current
    refine ⟨k, hk, fun _ => ?_⟩
    rw [failuresInARow_concat]
    exact hcount fun hdead => hd (isDead_iff.1 hdead)
  | opened a ha =>
    refine ⟨h.base, h.top, 0, ?_, fun _ => ?_⟩
    · have hbase := h.base
      simp only [Backoff.reset]
      omega
    · rw [failuresInARow_concat]
      rfl
  | ended a f next ha =>
    have hgrow := h.grow (not_isDead_of_attempt? ha)
    refine ⟨h.base, h.top, failuresInARow log + 1, hgrow, fun _ => ?_⟩
    rw [failuresInARow_concat]
    rfl
  | died a reason ha =>
    obtain ⟨k, hk, -⟩ := h.current
    exact ⟨h.base, h.top, k, hk, fun halive => absurd (isDead_iff.2 rfl) halive⟩

end Paced

theorem paced_run (floor ceiling : Nat) (calls : List Call) :
    let o := run (.between floor ceiling) calls
    Paced floor ceiling o.1 o.2 := by
  induction calls using List.reverseRecOn with
  | nil => exact .ofBackoff floor ceiling
  | append_singleton calls c ih =>
    rw [run_concat]
    exact ih.take c

/-- A clock that follows the log of a dialer never lacks room for a delay. -/
theorem clock_run (floor ceiling : UInt64) (calls : List Call) :
    ∃ t, (ClockBackoff.between (.ofMillis floor) (.ofMillis ceiling)).followAll?
        (run (.between floor.toNat ceiling.toNat) calls).2 = some t ∧
      t.Measures (run (.between floor.toNat ceiling.toNat) calls).1.backoff := by
  induction calls using List.reverseRecOn with
  | nil => exact ⟨_, rfl, ClockBackoff.measures_between floor ceiling⟩
  | append_singleton calls c ih =>
    obtain ⟨t, hfollow, ht⟩ := ih
    have hfits := Nat.lt_of_le_of_lt (paced_run floor.toNat ceiling.toNat calls).le_top
      (Nat.max_lt.2 ⟨floor.toNat_lt_size, ceiling.toNat_lt_size⟩)
    rw [run_concat]
    have htook := (run (.between floor.toNat ceiling.toNat) calls).1.took c
    generalize (run (.between floor.toNat ceiling.toNat) calls).1.take c = o at htook
    cases htook with
    | refused =>
      rw [List.append_nil]
      exact ⟨t, hfollow, ht⟩
    | began =>
      rw [ClockBackoff.followAll?_concat, hfollow]
      exact ⟨t, rfl, ht⟩
    | opened =>
      rw [ClockBackoff.followAll?_concat, hfollow]
      exact ⟨_, rfl, ht.reset⟩
    | ended a f next ha hf hnext =>
      obtain ⟨t', hgrow, ht'⟩ := ht.grow hfits
      rw [ClockBackoff.followAll?_concat, hfollow]
      refine ⟨t', ?_, ht'⟩
      rcases hnext with rfl | rfl <;> exact hgrow
    | died =>
      rw [ClockBackoff.followAll?_concat, hfollow]
      exact ⟨t, rfl, ht⟩

/-- Whatever a dialer was asked and told, a delay that it answers is its floor, doubled for every
failure since the last connection or the start, timeouts among them, but no more than the ceiling
or the floor, whichever is higher. A connection starts that count anew and a failure that is taken
notice of adds to it; a new attempt does not change it, and an outcome that comes too late changes
nothing at all. At all times the delay lies between floor and ceiling. And a clock that keeps the
delay as a span, and doubles it as the log tells, has room for each double. -/
theorem the_delay_is_doubled_up_to_the_ceiling (floor ceiling : UInt64) (calls : List Call) :
    let b := Backoff.between floor.toNat ceiling.toNat
    let d := (run b calls).1
    let log := (run b calls).2
    let top := max floor.toNat ceiling.toNat
    (∀ a f delay, (d.failed a f).2 = some (.after delay) →
      delay = min (floor.toNat * 2 ^ failuresInARow log) top) ∧
    (floor.toNat ≤ d.backoff.current ∧ d.backoff.current ≤ top) ∧
    (∀ a, (d.opened a).2 = true → failuresInARow (run b (calls ++ [.opened a])).2 = 0) ∧
    (∀ a f next, (d.failed a f).2 = some next →
      failuresInARow (run b (calls ++ [.failed a f])).2 = failuresInARow log + 1) ∧
    failuresInARow (run b (calls ++ [.begin])).2 = failuresInARow log ∧
    (∀ a, (d.opened a).2 = false → run b (calls ++ [.opened a]) = run b calls) ∧
    (∀ a f, (d.failed a f).2 = none → run b (calls ++ [.failed a f]) = run b calls) ∧
    ∃ t, (ClockBackoff.between (.ofMillis floor) (.ofMillis ceiling)).followAll? log = some t ∧
      t.current.total = d.backoff.current * 1000000 := by
  intro b d log top
  have h : Paced floor.toNat ceiling.toNat d log := paced_run floor.toNat ceiling.toNat calls
  obtain ⟨t, hfollow, ht⟩ := clock_run floor ceiling calls
  refine ⟨fun a f delay => h.delay_eq, ⟨h.floor_le, h.le_top⟩, ?_, ?_, ?_, ?_, ?_, t, hfollow,
    ht.current⟩
  · intro a ha
    rw [run_concat]
    simp only [take]
    rw [if_pos ha, failuresInARow_concat]
    rfl
  · intro a f next hnext
    rw [run_concat]
    simp only [take]
    rw [hnext]
    exact failuresInARow_concat log (.failed a f next)
  · rw [run_concat]
    simp only [take]
    cases d.begin.2 with
    | none => simp [log]
    | some a => exact failuresInARow_concat log (.began a)
  · exact fun a ha => run_concat_of_late (take_opened_of_late ha)
  · exact fun a f hf => run_concat_of_late (take_failed_of_late hf)

/-- Two failures of which one is a timeout, a late one of the first attempt, and a third attempt. -/
def roughStart : List Call :=
  [.begin, .failed 1 (.error "refused"), .begin, .failed 2 .timedOut, .failed 1 (.error "late"),
    .begin]

/-- From half a second, the third failure waits for two. Then the connection is up, and the next
failure would wait for half a second again. -/
theorem the_third_failure_waits_for_two_seconds :
    let b := Backoff.between (500 : UInt64).toNat (4000 : UInt64).toNat
    let d := (run b roughStart).1
    (d.failed 3 (.error "refused")).2 = some (.after 2000) ∧
    2000 = min ((500 : UInt64).toNat * 2 ^ failuresInARow (run b roughStart).2) 4000 ∧
    (d.opened 3).2 = true ∧ failuresInARow (run b (roughStart ++ [.opened 3])).2 = 0 ∧
    (d.failed 3 .timedOut).2 = some .now ∧
    failuresInARow (run b (roughStart ++ [.failed 3 .timedOut])).2 = 3 ∧
    (d.opened 2).2 = false ∧ run b (roughStart ++ [.opened 2]) = run b roughStart ∧
    (d.failed 2 .timedOut).2 = none ∧
    run b (roughStart ++ [.failed 2 .timedOut]) = run b roughStart := by
  intro b d
  obtain ⟨hdelay, -, hopened, hfailed, -, hlateOpened, hlateFailed, -⟩ :=
    the_delay_is_doubled_up_to_the_ceiling 500 4000 roughStart
  have hafter : (d.failed 3 (.error "refused")).2 = some (.after 2000) := by decide
  have hup : (d.opened 3).2 = true := by decide
  have hnow : (d.failed 3 .timedOut).2 = some .now := by decide
  have hover : (d.opened 2).2 = false := by decide
  have hnone : (d.failed 2 .timedOut).2 = none := by decide
  exact ⟨hafter, hdelay 3 _ 2000 hafter, hup, hopened 3 hup, hnow,
    (hfailed 3 .timedOut .now hnow).trans (by decide), hover, hlateOpened 2 hover, hnone,
    hlateFailed 2 .timedOut hnone⟩

end Dialer

end HuntBoard
