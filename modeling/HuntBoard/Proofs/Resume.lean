-- Resuming the stream: whatever becomes of the connections, the events that a hub
-- takes are numbered without a gap, and every attempt asks for those that follow.
import HuntBoard.Proofs.History
import HuntBoard.Proofs.HubSteps
import Mathlib.Data.List.Basic
import Mathlib.Data.List.Induction

namespace HuntBoard.Hub

open HubEffect

/-! ## The server's word -/

/-- The events that come over the connection of an attempt. -/
def eventsOn (a : Attempt) (is : List HubInput) : List SyncEvent :=
  is.filterMap fun
    | .link b (.message (.sync e)) => if b = a then some e else none
    | _ => none

/-- What a hub may rely on: events only come over connections it asked for; asked
to follow a change, the server sends the events that follow it, and else any
events that follow each other, each time in order and as many as it gets to. -/
structure ServerKeepsWord (c : HubConfig) (is : List HubInput) : Prop where
  asked : ∀ before a e, before ++ [.link a (.message (.sync e))] <+: is →
    ∃ after, .connect a after ∈ (life c before).2
  resumes : ∀ a n, .connect a (some n) ∈ (life c is).2 → ConsecutiveFrom n.number (eventsOn a is)
  begins : ∀ a, .connect a none ∈ (life c is).2 → ∃ n, ConsecutiveFrom n (eventsOn a is)

variable {c : HubConfig} {is : List HubInput} {i : HubInput}

theorem eventsOn_append (a : Attempt) (is js : List HubInput) :
    eventsOn a (is ++ js) = eventsOn a is ++ eventsOn a js := List.filterMap_append

theorem ServerKeepsWord.before (hs : ServerKeepsWord c (is ++ [i])) : ServerKeepsWord c is where
  asked before a e hp := hs.asked before a e (hp.trans (List.prefix_append ..))
  resumes a n hc := by
    have hall := hs.resumes a n ((life_effects_mono c (List.prefix_append ..)).subset hc)
    rw [eventsOn_append, consecutiveFrom_append] at hall
    exact hall.1
  begins a hc := by
    obtain ⟨n, hall⟩ := hs.begins a ((life_effects_mono c (List.prefix_append ..)).subset hc)
    rw [eventsOn_append, consecutiveFrom_append] at hall
    exact ⟨n, hall.1⟩

/-- Over the connection that the hub hangs on, it takes what comes. -/
theorem taken_eq_eventsOn {h : Hub} {a : Attempt} (ha : h.link.map (·.attempt) = some a)
    (i : HubInput) : h.taken i = eventsOn a [i] := by
  unfold taken eventsOn
  rw [ha]
  split
  · rename_i b e
    by_cases hb : b = a
    · simp [hb]
    · simp [hb, Ne.symm hb]
  · rename_i hi
    symm
    rw [List.filterMap_eq_nil_iff]
    intro x hx
    rw [List.mem_singleton] at hx
    subst hx
    split
    · exact absurd rfl (hi _ _)
    · rfl

theorem taken_of_no_link {h : Hub} (hl : h.link.map (·.attempt) = none) (i : HubInput) :
    h.taken i = [] := by
  unfold taken
  split
  · simp [hl]
  · rfl

/-- The hub takes no event and connects by one input. -/
theorem taken_eq_nil_or_connects_eq_nil (h : Hub) (i : HubInput) :
    h.taken i = [] ∨ connects (h.step i).2 = [] := by
  unfold taken
  split
  · rename_i a e
    split
    · rename_i ha
      right
      simp [step, onLink, ha, fromStream, broadcast]
    · exact Or.inl rfl
  · exact Or.inl rfl

/-! ## The invariant -/

/-- The events so far are numbered without a gap, attempts are numbered upwards,
and all that came over the present connection stands behind the event that it
was to follow. -/
structure Unbroken (c : HubConfig) (is : List HubInput) : Prop where
  consecutive : ∃ n, ConsecutiveFrom n (pushed c is)
  numbered : ∀ a after, .connect a after ∈ (life c is).2 → a < (life c is).1.dialer.nextAttempt
  current : ∀ a, (life c is).1.link.map (·.attempt) = some a →
    ∃ old, .connect a (old.getLast?.map (·.changeId)) ∈ (life c is).2 ∧
      pushed c is = old ++ eventsOn a is

theorem life_last? (c : HubConfig) (is : List HubInput) :
    (life c is).1.recent.last? = (pushed c is).getLast?.map (·.changeId) := by
  rw [life_recent, Recent.ofCapacity_pushAll_last?]

theorem unbroken_nil (c : HubConfig) : Unbroken c [] where
  consecutive := ⟨0, trivial⟩
  numbered a after h := by
    obtain ⟨rfl, -⟩ : a = 1 ∧ after = none := by simpa [life, start_eq] using h
    exact Nat.lt_add_one 1
  current a h := by
    obtain rfl : 1 = a := by simpa [life, start_eq] using h
    exact ⟨[], by simp [life, start_eq], rfl⟩

/-- No event has come over the connection of an attempt that was not made yet. -/
theorem Unbroken.eventsOn_eq_nil (hu : Unbroken c is) (hs : ServerKeepsWord c (is ++ [i]))
    {a : Attempt} (ha : (life c is).1.dialer.nextAttempt ≤ a) : eventsOn a (is ++ [i]) = [] := by
  rw [eventsOn, List.filterMap_eq_nil_iff]
  intro x hx
  split
  · rename_i b e
    split
    · rename_i hb
      subst hb
      exfalso
      obtain ⟨before, rest, hsplit⟩ := List.append_of_mem hx
      have hp : before ++ [.link b (.message (.sync e))] <+: is ++ [i] :=
        ⟨rest, by rw [hsplit, List.append_assoc, List.singleton_append]⟩
      obtain ⟨after, hc⟩ := hs.asked before b e hp
      have hbefore : before <+: is := by
        rcases List.prefix_concat_iff.1 hp with heq | hp
        · have heq : before = is := (List.append_inj' heq rfl).1
          exact heq ▸ List.prefix_rfl
        · exact (List.prefix_append ..).trans hp
      have hlt := hu.numbered b after ((life_effects_mono c hbefore).subset hc)
      exact Nat.not_le_of_lt hlt ha
    · rfl
  · rfl

/-- The step that carries the law: the event that comes next follows the last
one, be it the first of its connection or not. -/
theorem Unbroken.consecutive_snoc (hu : Unbroken c is) (hs : ServerKeepsWord c (is ++ [i])) :
    ∃ n, ConsecutiveFrom n (pushed c (is ++ [i])) := by
  rw [pushed_snoc]
  cases hl : (life c is).1.link.map (·.attempt) with
  | none =>
    rw [taken_of_no_link hl, List.append_nil]
    exact hu.consecutive
  | some a =>
    obtain ⟨old, hc, hold⟩ := hu.current a hl
    have hc := (life_effects_mono c (List.prefix_append is [i])).subset hc
    rw [taken_eq_eventsOn hl, hold, List.append_assoc, ← eventsOn_append]
    -- Behind nothing, the connection may begin anywhere; behind an event, it was to follow it.
    rcases List.eq_nil_or_concat' old with rfl | ⟨older, e, rfl⟩
    · exact hs.begins a hc
    · rw [List.getLast?_concat] at hc
      obtain ⟨n, hn⟩ := hu.consecutive
      rw [hold, consecutiveFrom_append] at hn
      refine ⟨n, (consecutiveFrom_append ..).2 ⟨hn.1, ?_⟩⟩
      have he : e.changeId.number = n + (older ++ [e]).length := by
        rw [hn.1.number_eq (i := older.length) (e := e) (by simp), List.length_append]
        rfl
      rw [← he]
      exact hs.resumes a e.changeId hc

theorem Unbroken.snoc (hu : Unbroken c is) (hs : ServerKeepsWord c (is ++ [i])) :
    Unbroken c (is ++ [i]) := by
  have hold : ∀ a after, .connect a after ∈ (life c is).2 →
      .connect a after ∈ (life c (is ++ [i])).2 :=
    fun a after h => (life_effects_mono c (List.prefix_append is [i])).subset h
  have hhub : (life c (is ++ [i])).1 = ((life c is).1.step i).1 := by rw [life_snoc, andThen_fst]
  have hnew : ∀ a after, .connect a after ∈ (life c (is ++ [i])).2 →
      .connect a after ∈ (life c is).2 ∨ (a, after) ∈ connects ((life c is).1.step i).2 := by
    intro a after h
    rw [life_snoc, andThen_snd, List.mem_append] at h
    exact h.imp id mem_connects.2
  cases (life c is).1.step_linkMove i with
  | kept link next connects =>
    refine ⟨hu.consecutive_snoc hs, fun a after h => ?_, fun a ha => ?_⟩
    · rcases hnew a after h with h | h
      · rw [hhub, next]
        exact hu.numbered a after h
      · simp [connects] at h
    · rw [hhub, link] at ha
      obtain ⟨old, hc, hp⟩ := hu.current a ha
      refine ⟨old, hold a _ hc, ?_⟩
      rw [pushed_snoc, hp, taken_eq_eventsOn ha, eventsOn_append, List.append_assoc]
  | dropped link next connects =>
    refine ⟨hu.consecutive_snoc hs, fun a after h => ?_, fun a ha => ?_⟩
    · rcases hnew a after h with h | h
      · rw [hhub, next]
        exact hu.numbered a after h
      · simp [connects] at h
    · simp [hhub, link] at ha
  | dialed link next connects =>
    refine ⟨hu.consecutive_snoc hs, fun a after h => ?_, fun a ha => ?_⟩
    · rw [hhub, next]
      rcases hnew a after h with h | h
      · exact Nat.lt_succ_of_lt (hu.numbered a after h)
      · obtain ⟨rfl, -⟩ : a = _ ∧ after = _ := by simpa [connects] using h
        exact Nat.lt_succ_self _
    · -- Nothing came over the new connection yet, so all there is stands before it.
      obtain rfl : (life c is).1.dialer.nextAttempt = a := by simpa [hhub, link] using ha
      have htaken : (life c is).1.taken i = [] := by
        rcases taken_eq_nil_or_connects_eq_nil (life c is).1 i with h | h
        · exact h
        · simp [connects] at h
      refine ⟨pushed c is, ?_, ?_⟩
      · rw [life_snoc, andThen_snd, ← life_last?]
        refine List.mem_append_right _ (mem_connects.1 ?_)
        rw [connects]
        exact List.mem_singleton_self _
      · rw [pushed_snoc, htaken, hu.eventsOn_eq_nil hs (Nat.le_refl _)]

theorem unbroken (hs : ServerKeepsWord c is) : Unbroken c is := by
  induction is using List.reverseRecOn with
  | nil => exact unbroken_nil c
  | append_singleton is i ih => exact (ih hs.before).snoc hs

/-! ## The law -/

/-- Through failures, retries and late events of connections that were given up,
the buffer is pushed events with consecutive ids: none is skipped, none comes
twice. Every attempt made on the way asks for the events that follow the last one
pushed until then. -/
theorem the_stream_resumes_without_a_gap (hs : ServerKeepsWord c is) :
    (∃ n, ConsecutiveFrom n (pushed c is)) ∧
    (life c is).1.recent = (Recent.ofCapacity c.recentCapacity).pushAll (pushed c is) ∧
    ∀ before i, before ++ [i] <+: is → ∀ a after,
      .connect a after ∈ ((life c before).1.step i).2 →
        after = (pushed c before).getLast?.map (·.changeId) := by
  refine ⟨(unbroken hs).consecutive, life_recent c is, fun before i _ a after h => ?_⟩
  rw [← life_last?]
  rw [← mem_connects] at h
  cases (life c before).1.step_linkMove i with
  | kept link next connects => simp [connects] at h
  | dropped link next connects => simp [connects] at h
  | dialed link next connects =>
    rw [connects, List.mem_singleton] at h
    exact (Prod.mk.inj h).2

/-- A connection fails, an event of it comes too late, and the next connection
brings that event again. -/
def lateEcho : List HubInput :=
  [.link 1 (.message (.sync ⟨⟨5⟩, .deletePuzzle ⟨1⟩⟩)), .link 1 (.ended (.error "reset")),
    .retryDue,
    .link 1 (.message (.sync ⟨⟨6⟩, .deletePuzzle ⟨2⟩⟩)),
    .link 2 (.message (.sync ⟨⟨6⟩, .deletePuzzle ⟨2⟩⟩))]

theorem lateEcho_effects :
    (life { recentCapacity := 0 } lateEcho).2 =
      [.connect 1 none, .hangUp 1, .retryAfter 500, .connect 2 (some ⟨5⟩)] := by decide

theorem lateEcho_keepsWord : ServerKeepsWord { recentCapacity := 0 } lateEcho where
  asked before a e hp := by
    obtain ⟨rest, h⟩ := hp
    have hbefore : before = lateEcho.take before.length := by simp [← h]
    have hnext : lateEcho[before.length]? = some (.link a (.message (.sync e))) := by simp [← h]
    rw [hbefore]
    generalize before.length = n at hnext
    match n with
    | 0 | 3 =>
      obtain ⟨rfl, -⟩ : 1 = a ∧ _ := by simpa [lateEcho] using hnext
      exact ⟨none, by decide⟩
    | 4 =>
      obtain ⟨rfl, -⟩ : 2 = a ∧ _ := by simpa [lateEcho] using hnext
      exact ⟨some ⟨5⟩, by decide⟩
    | 1 | 2 | n + 5 => simp [lateEcho] at hnext
  resumes a n h := by
    rw [lateEcho_effects] at h
    obtain ⟨rfl, rfl⟩ : a = 2 ∧ n = ⟨5⟩ := by simpa using h
    decide
  begins a h := by
    rw [lateEcho_effects] at h
    obtain rfl : a = 1 := by simpa using h
    exact ⟨4, by decide⟩

/-- Even with room for a single event, the one that came too late counts once. -/
theorem lateEcho_resumes_without_a_gap :
    ServerKeepsWord { recentCapacity := 0 } lateEcho ∧
    (∃ n, ConsecutiveFrom n (pushed { recentCapacity := 0 } lateEcho)) ∧
    (pushed { recentCapacity := 0 } lateEcho).map (·.changeId) = [⟨5⟩, ⟨6⟩] :=
  ⟨lateEcho_keepsWord, (the_stream_resumes_without_a_gap lateEcho_keepsWord).1, by decide⟩

end HuntBoard.Hub
