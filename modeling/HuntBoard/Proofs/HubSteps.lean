-- What one input does to a hub: to the buffer of the newest events, to the
-- roster, to the connection, and which letters and attempts come out of it.
import HuntBoard.Hub
import HuntBoard.Proofs.Dialing
import HuntBoard.Proofs.KeyedMap
import HuntBoard.Proofs.Recent

namespace HuntBoard

/-! ## Reading effects -/

namespace HubEffect

def letter? : HubEffect → Option Letter
  | .deliver l => some l
  | _ => none

/-- An attempt to connect, and the change that its events are to follow. -/
def connect? : HubEffect → Option (Attempt × Option ChangeId)
  | .connect a after => some (a, after)
  | _ => none

/-- The letters among effects, in order. -/
def letters (es : List HubEffect) : List Letter := es.filterMap letter?

/-- The attempts among effects, in order. -/
def connects (es : List HubEffect) : List (Attempt × Option ChangeId) := es.filterMap connect?

@[simp] theorem letters_append (es fs : List HubEffect) :
    letters (es ++ fs) = letters es ++ letters fs := List.filterMap_append

@[simp] theorem connects_append (es fs : List HubEffect) :
    connects (es ++ fs) = connects es ++ connects fs := List.filterMap_append

@[simp] theorem connects_connect (a : Attempt) (after : Option ChangeId) :
    connects [.connect a after] = [(a, after)] := rfl

@[simp] theorem letters_map_deliver (ls : List Letter) : letters (ls.map .deliver) = ls := by
  induction ls with
  | nil => rfl
  | cons l ls ih => exact congrArg (l :: ·) ih

@[simp] theorem connects_map_deliver (ls : List Letter) : connects (ls.map .deliver) = [] := by
  induction ls with
  | nil => rfl
  | cons l ls ih => exact ih

theorem mem_connects {es : List HubEffect} {a : Attempt} {after : Option ChangeId} :
    (a, after) ∈ connects es ↔ .connect a after ∈ es := by
  unfold connects
  rw [List.mem_filterMap]
  constructor
  · rintro ⟨x, hx, he⟩
    cases x <;> simp only [connect?, reduceCtorEq, Option.some.injEq, Prod.mk.injEq] at he
    obtain ⟨rfl, rfl⟩ := he
    exact hx
  · intro h
    exact ⟨_, h, rfl⟩

end HubEffect

open HubEffect

/-- The event that a message tells of. -/
def HubMessage.event? : HubMessage → Option SyncEvent
  | .sync e => some e
  | _ => none

/-- The tab that attaches by an input, and its inbox. -/
def HubInput.start? : HubInput → Option (TabId × Inbox)
  | .fromTab (.start tab _) (some inbox) => some (tab, inbox)
  | _ => none

namespace Hub

variable (h : Hub)

@[simp] theorem andThen_fst (o : Outcome) (f : Hub → Outcome) : (o.andThen f).1 = (f o.1).1 := rfl

@[simp] theorem andThen_snd (o : Outcome) (f : Hub → Outcome) :
    (o.andThen f).2 = o.2 ++ (f o.1).2 := rfl

/-! ## The parts of a step -/

@[simp] theorem dropLink_frame :
    h.dropLink.1 = { h with link := none } ∧ letters h.dropLink.2 = [] ∧
    connects h.dropLink.2 = [] := by
  unfold dropLink
  cases h.link <;> exact ⟨rfl, rfl, rfl⟩

/-- Telling the tabs the state of the stream changes what they were told, and
nothing else. -/
@[simp] theorem publish_frame :
    h.publish.1 = { h with published := h.dialer.linkState } ∧ connects h.publish.2 = [] := by
  unfold publish
  dsimp only
  split
  · rename_i hp
    rw [hp]
    exact ⟨rfl, rfl⟩
  · exact ⟨rfl, connects_map_deliver _⟩

/-- The tabs are told the new state of the stream, or nothing. -/
theorem letters_publish :
    letters h.publish.2 = if h.dialer.linkState = h.published then []
      else h.roster.broadcast (.status h.dialer.linkState) := by
  unfold publish
  dsimp only
  split
  · rfl
  · exact letters_map_deliver _

/-- Sending activity changes what is known of activity, and nothing else. -/
@[simp] theorem flush_frame (pick : Activity → Activity × Option ActivitySummary) :
    (h.flush pick).1.link = h.link ∧ (h.flush pick).1.dialer = h.dialer ∧
    (h.flush pick).1.recent = h.recent ∧ (h.flush pick).1.roster = h.roster ∧
    letters (h.flush pick).2 = [] ∧ connects (h.flush pick).2 = [] := by
  unfold flush
  split
  · dsimp only
    cases (pick h.activity).2 <;> exact ⟨rfl, rfl, rfl, rfl, rfl, rfl⟩
  · exact ⟨rfl, rfl, rfl, rfl, rfl, rfl⟩

@[simp] theorem flush_published (pick : Activity → Activity × Option ActivitySummary) :
    (h.flush pick).1.published = h.published := by
  unfold flush
  split <;> rfl

@[simp] theorem dial_frame :
    h.dial.1.recent = h.recent ∧ h.dial.1.roster = h.roster ∧ letters h.dial.2 = [] := by
  unfold dial
  simp only [andThen_fst, andThen_snd, letters_append, dropLink_frame]
  split <;> exact ⟨rfl, rfl, rfl⟩

@[simp] theorem dial_published : h.dial.1.published = h.published := by
  unfold dial
  rw [andThen_fst, h.dropLink_frame.1]
  split <;> rfl

/-- What becomes of the connection: it is the same, it is let go, or the next
attempt takes its place and asks for the events after the last one that came. -/
inductive LinkMove (h : Hub) (o : Outcome) : Prop where
  | kept (link : o.1.link.map (·.attempt) = h.link.map (·.attempt))
      (next : o.1.dialer.nextAttempt = h.dialer.nextAttempt) (connects : connects o.2 = [])
  | dropped (link : o.1.link = none) (next : o.1.dialer.nextAttempt = h.dialer.nextAttempt)
      (connects : connects o.2 = [])
  | dialed (link : o.1.link = some ⟨h.dialer.nextAttempt, false⟩)
      (next : o.1.dialer.nextAttempt = h.dialer.nextAttempt + 1)
      (connects : connects o.2 = [(h.dialer.nextAttempt, h.recent.last?)])

theorem LinkMove.refl (h : Hub) : LinkMove h (h, []) := .kept rfl rfl rfl

theorem dial_linkMove : LinkMove h h.dial := by
  unfold dial
  by_cases hd : h.dialer.isDead
  · have hbegin := Dialer.begin_of_dead hd
    refine .dropped ?_ ?_ ?_ <;> simp [hbegin]
  · have hbegin := Dialer.begin_of_alive hd
    refine .dialed ?_ ?_ ?_ <;> simp [hbegin]

/-! ## Inputs -/

/-- The events that an input puts into the buffer of the newest. -/
def taken (h : Hub) : HubInput → List SyncEvent
  | .link a (.message (.sync e)) => if h.link.map (·.attempt) = some a then [e] else []
  | _ => []

/-- What the tabs are told by an outcome goes to all of them, and holds just
these events. -/
def Tells (h : Hub) (o : Outcome) (es : List SyncEvent) : Prop :=
  ∃ ms : List HubMessage,
    letters o.2 = ms.flatMap h.roster.broadcast ∧ ms.filterMap HubMessage.event? = es

theorem tells_nothing {h : Hub} {o : Outcome} (ho : letters o.2 = []) : h.Tells o [] :=
  ⟨[], ho, rfl⟩

theorem publish_tells : h.Tells h.publish [] := by
  by_cases hp : h.dialer.linkState = h.published
  · exact tells_nothing (by simp [letters_publish, hp])
  · exact ⟨[.status h.dialer.linkState], by simp [letters_publish, hp], rfl⟩

theorem opened_frame (a : Attempt) :
    (h.opened a).1.recent = h.recent ∧ (h.opened a).1.roster = h.roster ∧
    h.Tells (h.opened a) [] := by
  unfold opened
  split
  · rename_i dialer _
    let h' : Hub := { h with dialer, link := some ⟨a, true⟩ }
    refine ⟨by simp, by simp, ?_⟩
    obtain ⟨ms, hms, hes⟩ := h'.publish_tells
    exact ⟨ms, by simpa using hms, hes⟩
  · exact ⟨rfl, rfl, tells_nothing rfl⟩

theorem opened_linkMove {a : Attempt} (ha : h.link.map (·.attempt) = some a) :
    LinkMove h (h.opened a) := by
  unfold opened
  split
  · rename_i dialer hd
    have hn : dialer.nextAttempt = h.dialer.nextAttempt := by
      rw [← h.dialer.opened_nextAttempt a, hd]
    exact .kept (by simp [ha]) (by simp [hn]) (by simp)
  · exact .refl h

@[simp] theorem retry_frame (next : Retry) :
    (h.retry next).1.recent = h.recent ∧ (h.retry next).1.roster = h.roster ∧
    letters (h.retry next).2 = [] := by
  cases next with
  | now => exact h.dial_frame
  | after delay => exact ⟨rfl, rfl, rfl⟩
  | never => exact ⟨rfl, rfl, rfl⟩

@[simp] theorem retry_published (next : Retry) : (h.retry next).1.published = h.published := by
  cases next with
  | now => exact h.dial_published
  | after delay => rfl
  | never => rfl

theorem retry_linkMove (next : Retry) : LinkMove h (h.retry next) := by
  cases next with
  | now => exact h.dial_linkMove
  | after delay => exact .kept rfl rfl rfl
  | never => exact .refl h

theorem ended_frame (a : Attempt) (f : Failure) :
    (h.ended a f).1.recent = h.recent ∧ (h.ended a f).1.roster = h.roster ∧
    h.Tells (h.ended a f) [] := by
  unfold ended
  split
  · rename_i dialer next _
    let h' : Hub := { h with dialer, link := none }
    obtain ⟨ms, hms, hes⟩ := h'.publish_tells
    exact ⟨by simp, by simp, ms, by simpa using hms, hes⟩
  · exact ⟨rfl, rfl, tells_nothing rfl⟩

theorem ended_linkMove (a : Attempt) (f : Failure) : LinkMove h (h.ended a f) := by
  unfold ended
  split
  · rename_i dialer next hd
    have hn : dialer.nextAttempt = h.dialer.nextAttempt := by
      rw [← h.dialer.failed_nextAttempt a f, hd]
    -- The retry starts from a hub whose connection is let go already.
    let h' : Hub := { h with dialer, link := none, published := dialer.linkState }
    cases h'.retry_linkMove next with
    | kept link next connects =>
      exact .dropped (by simpa [h'] using link) (by simpa [h', hn] using next)
        (by simpa [h'] using connects)
    | dropped link next connects =>
      exact .dropped (by simpa [h'] using link) (by simpa [h', hn] using next)
        (by simpa [h'] using connects)
    | dialed link next connects =>
      exact .dialed (by simpa [h', hn] using link) (by simpa [h', hn] using next)
        (by simpa [h', hn] using connects)
  · exact .refl h

theorem attach_frame (tab : TabId) (scope : Option PuzzleId) (inbox : Inbox) :
    (h.attach tab scope inbox).1 = { h with roster := (h.roster.attach tab scope inbox).1 } ∧
    letters (h.attach tab scope inbox).2 = h.welcome.map (fun m => ⟨inbox, m⟩) ∧
    connects (h.attach tab scope inbox).2 = [] := by
  have hw : h.welcome.map (fun m => HubEffect.deliver ⟨inbox, m⟩) =
      (h.welcome.map (fun m => (⟨inbox, m⟩ : Letter))).map .deliver := by
    rw [List.map_map]
    rfl
  unfold attach
  refine ⟨rfl, ?_, ?_⟩
  · simp only [hw, letters_append, letters_map_deliver]
    split <;> exact List.append_nil _
  · simp only [hw, connects_append, connects_map_deliver]
    split <;> rfl

theorem fromStream_frame (m : LiveMessage) :
    (h.fromStream m).1.link = h.link ∧ (h.fromStream m).1.dialer = h.dialer ∧
    (h.fromStream m).1.roster = h.roster ∧ connects (h.fromStream m).2 = [] := by
  cases m <;> exact ⟨rfl, rfl, rfl, connects_map_deliver _⟩

/-! ## One input -/

/-- The buffer takes the events of an input, each in its turn. -/
theorem step_recent (i : HubInput) :
    (h.step i).1.recent = h.recent.pushAll (h.taken i) := by
  cases i with
  | fromTab m inbox =>
    cases m with
    | start tab scope => cases inbox <;> rfl
    | activity tab subject active =>
      simp only [step, fromTab, taken]
      split <;> rfl
  | tabGone tab =>
    simp only [step, tabGone, taken]
    split <;> rfl
  | link a e =>
    simp only [step, onLink]
    cases e with
    | opened =>
      split
      · exact (h.opened_frame a).1
      · rfl
    | message m =>
      cases m <;> simp only [taken] <;> split <;> rfl
    | ended f =>
      split
      · exact (h.ended_frame a f).1
      · rfl
  | retryDue =>
    simp only [step, retryDue, taken]
    split
    · exact (dial_frame { h with retryPending := false }).1
    · rfl
  | flushDue => exact (h.flush_frame Activity.news).2.2.1

/-- The connection after an input. -/
theorem step_linkMove (i : HubInput) : LinkMove h (h.step i) := by
  cases i with
  | fromTab m inbox =>
    cases m with
    | start tab scope =>
      cases inbox with
      | none => exact .refl h
      | some inbox =>
        obtain ⟨hh, _, hc⟩ := h.attach_frame tab scope inbox
        exact .kept (by simp only [step, fromTab, hh]) (by simp only [step, fromTab, hh]) hc
    | activity tab subject active =>
      simp only [step, fromTab]
      split
      · exact .kept rfl rfl rfl
      · exact .refl h
  | tabGone tab =>
    simp only [step, tabGone]
    split
    · exact .kept rfl rfl rfl
    · exact .refl h
  | link a e =>
    simp only [step, onLink]
    split
    · rename_i ha
      cases e with
      | opened => exact h.opened_linkMove ha
      | message m =>
        obtain ⟨hl, hd, _, hc⟩ := h.fromStream_frame m
        exact .kept (by rw [hl]) (by rw [hd]) hc
      | ended f => exact h.ended_linkMove a f
    · exact .refl h
  | retryDue =>
    simp only [step, retryDue]
    split
    · cases dial_linkMove { h with retryPending := false } with
      | kept link next connects => exact .kept link next connects
      | dropped link next connects => exact .dropped link next connects
      | dialed link next connects => exact .dialed link next connects
    · exact .kept rfl rfl rfl
  | flushDue =>
    obtain ⟨hl, hd, _, _, _, hc⟩ := h.flush_frame Activity.news
    exact .kept (by simp only [step, hl]) (by simp only [step, hd]) hc

/-- The roster after an input: tabs come and go by their own inputs only. -/
theorem step_roster (i : HubInput) :
    (h.step i).1.roster =
      match i with
      | .fromTab (.start tab scope) (some inbox) => (h.roster.attach tab scope inbox).1
      | .tabGone tab => (h.roster.detach tab).1
      | _ => h.roster := by
  cases i with
  | fromTab m inbox =>
    cases m with
    | start tab scope =>
      cases inbox with
      | none => rfl
      | some inbox => exact congrArg Hub.roster (h.attach_frame tab scope inbox).1
    | activity tab subject active =>
      simp only [step, fromTab]
      split <;> rfl
  | tabGone tab =>
    simp only [step, tabGone, Roster.detach]
    split
    · rename_i hd
      rw [← (Prod.mk.inj hd).1]
    · rename_i hd
      have hnone : h.roster.seats.get? tab = none := by
        simpa [KeyedMap.contains] using (Prod.mk.inj hd).2
      rw [KeyedMap.erase_of_get?_none hnone]
  | link a e =>
    simp only [step, onLink]
    split
    · cases e with
      | opened => exact (h.opened_frame a).2.1
      | message m => exact (h.fromStream_frame m).2.2.1
      | ended f => exact (h.ended_frame a f).2.1
    · rfl
  | retryDue =>
    simp only [step, retryDue]
    split
    · exact (dial_frame { h with retryPending := false }).2.1
    · rfl
  | flushDue => exact (h.flush_frame Activity.news).2.2.2.1

/-- Unless a tab attaches, what an input makes the hub say goes to all tabs, and
it tells of the events that the buffer takes. -/
theorem step_tells {i : HubInput} (hi : i.start? = none) : h.Tells (h.step i) (h.taken i) := by
  cases i with
  | fromTab m inbox =>
    cases m with
    | start tab scope =>
      cases inbox with
      | none => exact tells_nothing rfl
      | some inbox => simp [HubInput.start?] at hi
    | activity tab subject active =>
      refine tells_nothing ?_
      simp only [step, fromTab]
      split <;> rfl
  | tabGone tab =>
    refine tells_nothing ?_
    simp only [step, tabGone]
    split <;> rfl
  | link a e =>
    simp only [step, onLink]
    cases e with
    | opened =>
      split
      · exact (h.opened_frame a).2.2
      · exact tells_nothing rfl
    | message m =>
      by_cases ha : h.link.map (·.attempt) = some a
      · cases m with
        | sync e =>
          exact ⟨[.sync e], by simp [ha, fromStream, broadcast],
            by simp [taken, ha, HubMessage.event?]⟩
        | settings s => exact ⟨[.settings s], by simp [ha, fromStream, broadcast], rfl⟩
        | presence p => exact ⟨[.presence p], by simp [ha, fromStream, broadcast], rfl⟩
        | users u => exact ⟨[.users u], by simp [ha, fromStream, broadcast], rfl⟩
      · cases m <;> simp only [ha, taken, if_false] <;> exact tells_nothing rfl
    | ended f =>
      split
      · exact (h.ended_frame a f).2.2
      · exact tells_nothing rfl
  | retryDue =>
    refine tells_nothing ?_
    simp only [step, retryDue]
    split
    · exact (dial_frame { h with retryPending := false }).2.2
    · rfl
  | flushDue => exact tells_nothing (h.flush_frame Activity.news).2.2.2.2.1

/-! ## Many inputs -/

@[simp] theorem run_nil : h.run [] = (h, []) := rfl

@[simp] theorem run_cons (i : HubInput) (is : List HubInput) :
    h.run (i :: is) = (h.step i).andThen fun h => h.run is := rfl

theorem run_append (is js : List HubInput) :
    h.run (is ++ js) = (h.run is).andThen fun h => h.run js := by
  induction is generalizing h with
  | nil => simp [Outcome.andThen]
  | cons i is ih => simp [Outcome.andThen, ih]

/-- The events that inputs put into the buffer of the newest, in order. -/
def takenAll (h : Hub) : List HubInput → List SyncEvent
  | [] => []
  | i :: rest => h.taken i ++ (h.step i).1.takenAll rest

theorem takenAll_append (is js : List HubInput) :
    h.takenAll (is ++ js) = h.takenAll is ++ (h.run is).1.takenAll js := by
  induction is generalizing h with
  | nil => rfl
  | cons i is ih => simp [takenAll, ih]

theorem run_recent (is : List HubInput) :
    (h.run is).1.recent = h.recent.pushAll (h.takenAll is) := by
  induction is generalizing h with
  | nil => rfl
  | cons i is ih =>
    simp only [run_cons, andThen_fst, takenAll, Recent.pushAll_append, ih, step_recent]

/-! ## From the start -/

/-- A hub starts with its first attempt, which is to follow nothing. -/
theorem start_eq (c : HubConfig) :
    start c =
      ({ ofConfig c with
          dialer := { (ofConfig c).dialer with phase := .connecting 1, nextAttempt := 2 }
          link := some ⟨1, false⟩ },
        [.connect 1 none]) := rfl

/-- A hub from its start through inputs, with all that it wanted done. -/
def life (c : HubConfig) (is : List HubInput) : Outcome := (start c).andThen fun h => h.run is

/-- The events that a hub put into its buffer from its start on, in order. -/
def pushed (c : HubConfig) (is : List HubInput) : List SyncEvent := (start c).1.takenAll is

variable (c : HubConfig) (is js : List HubInput) (i : HubInput)

theorem life_append : life c (is ++ js) = (life c is).andThen fun h => h.run js := by
  simp [life, Outcome.andThen, run_append]

theorem life_snoc : life c (is ++ [i]) = (life c is).andThen fun h => h.step i := by
  simp [life_append, Outcome.andThen]

theorem pushed_append : pushed c (is ++ js) = pushed c is ++ (life c is).1.takenAll js :=
  takenAll_append _ is js

theorem pushed_snoc : pushed c (is ++ [i]) = pushed c is ++ (life c is).1.taken i := by
  simp [pushed_append, takenAll]

/-- What a hub wanted done by some time it has wanted done ever after. -/
theorem life_effects_mono {is js : List HubInput} (hp : is <+: js) :
    (life c is).2 <+: (life c js).2 := by
  obtain ⟨rest, rfl⟩ := hp
  rw [life_append]
  exact List.prefix_append ..

theorem life_recent :
    (life c is).1.recent = (Recent.ofCapacity c.recentCapacity).pushAll (pushed c is) :=
  run_recent _ is

end Hub

end HuntBoard
