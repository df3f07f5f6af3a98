-- What the server is told of activity: after every look for news, the connection
-- that is up was told what is known, unless an earlier one was told the same.
import HuntBoard.Proofs.HubSteps
import HuntBoard.Proofs.ReportSums
import Mathlib.Data.List.Basic
import Mathlib.Data.List.Induction

namespace HuntBoard

/-! ## Reading effects -/

namespace HubEffect

def send? : HubEffect → Option (Attempt × ActivitySummary)
  | .send a s => some (a, s)
  | _ => none

/-- The summaries of activity that effects send, each with the attempt on whose
connection it goes, in order. -/
def sends (es : List HubEffect) : List (Attempt × ActivitySummary) := es.filterMap send?

/-- The summaries that effects send on the connection of one attempt. -/
def sentOn (a : Attempt) (es : List HubEffect) : List ActivitySummary :=
  (sends es).filterMap fun x => if x.1 = a then some x.2 else none

/-- The summary that effects send last, on whatever connection. -/
def lastSent (es : List HubEffect) : Option ActivitySummary := (sends es).getLast?.map (·.2)

@[simp] theorem sends_nil : sends [] = [] := rfl

@[simp] theorem sends_append (es fs : List HubEffect) : sends (es ++ fs) = sends es ++ sends fs :=
  List.filterMap_append

@[simp] theorem sends_map_deliver (ls : List Letter) : sends (ls.map .deliver) = [] := by
  induction ls with
  | nil => rfl
  | cons l ls ih => exact ih

@[simp] theorem sends_connect (a : Attempt) (after : Option ChangeId) :
    sends [.connect a after] = [] := rfl

@[simp] theorem sends_send (a : Attempt) (s : ActivitySummary) : sends [.send a s] = [(a, s)] := rfl

variable {a : Attempt} {s : ActivitySummary} {es : List HubEffect}

theorem sentOn_eq_nil (h : ∀ x ∈ sends es, x.1 ≠ a) : sentOn a es = [] :=
  List.filterMap_eq_nil_iff.2 fun x hx => if_neg (h x hx)

/-- What is sent last of all is sent last on its own connection. -/
theorem getLast?_sentOn (h : (sends es).getLast? = some (a, s)) :
    (sentOn a es).getLast? = some s := by
  obtain ⟨l, hl⟩ := List.getLast?_eq_some_iff.1 h
  simp [sentOn, hl]

end HubEffect

open HubEffect

/-! ## One input -/

namespace Hub

variable (h : Hub)

@[simp] theorem dropLink_sends : sends h.dropLink.2 = [] := by
  unfold dropLink
  cases h.link <;> rfl

@[simp] theorem publish_sends : sends h.publish.2 = [] := by
  unfold publish
  dsimp only
  split
  · rfl
  · exact sends_map_deliver _

theorem attach_sends (tab : TabId) (scope : Option PuzzleId) (inbox : Inbox) :
    sends (h.attach tab scope inbox).2 = [] := by
  unfold attach
  rw [sends_append, List.append_eq_nil_iff]
  constructor
  · exact List.filterMap_eq_nil_iff.2 fun e he => by
      obtain ⟨m, -, rfl⟩ := List.mem_map.1 he
      rfl
  · split <;> rfl

/-- How a hub without a connection goes on: nothing is sent and what was sent is
remembered, and the next attempt may be in progress, which has no connection yet. -/
structure GoesOnAlone (h : Hub) (o : Outcome) : Prop where
  sends : sends o.2 = []
  activity : o.1.activity = h.activity
  next : h.dialer.nextAttempt ≤ o.1.dialer.nextAttempt
  connecting : ∀ a, o.1.dialer.phase = .connecting a →
    a = h.dialer.nextAttempt ∧ a < o.1.dialer.nextAttempt
  connected : ∀ a, o.1.dialer.phase ≠ .connected a

theorem dial_goesOnAlone : h.GoesOnAlone h.dial := by
  unfold dial
  by_cases hd : h.dialer.isDead
  · have hbegin := Dialer.begin_of_dead hd
    have hphase := Dialer.isDead_iff.1 hd
    constructor <;> simp [hbegin, hphase]
  · have hbegin := Dialer.begin_of_alive hd
    refine ⟨by simp [hbegin], by simp [hbegin], by simp [hbegin], fun a ha => ?_, by simp [hbegin]⟩
    obtain rfl : h.dialer.nextAttempt = a := by simpa [hbegin] using ha
    simp [hbegin]

theorem retry_goesOnAlone (hp : h.dialer.phase.attempt? = none) (next : Retry) :
    h.GoesOnAlone (h.retry next) := by
  have hnone : ∀ a, h.dialer.phase ≠ .connecting a ∧ h.dialer.phase ≠ .connected a := by
    intro a
    constructor <;> intro heq <;> simp [heq, Phase.attempt?] at hp
  cases next with
  | now => exact h.dial_goesOnAlone
  | after delay => exact ⟨rfl, rfl, Nat.le_refl _, fun a ha => absurd ha (hnone a).1,
      fun a => (hnone a).2⟩
  | never => exact ⟨rfl, rfl, Nat.le_refl _, fun a ha => absurd ha (hnone a).1,
      fun a => (hnone a).2⟩

/-- What an input does for the telling of activity. Nothing is sent, and then a
connection that is up was up before; or an attempt gets its connection while nothing
is known; or the connection that is up is sent all that is known. -/
inductive TellMove (h : Hub) (i : HubInput) (o : Outcome) : Prop where
  | silent (sends : sends o.2 = []) (sent : o.1.activity.sent = h.activity.sent)
      (next : h.dialer.nextAttempt ≤ o.1.dialer.nextAttempt)
      (connecting : ∀ a, o.1.dialer.phase = .connecting a → h.dialer.phase = .connecting a ∨
        a = h.dialer.nextAttempt ∧ a < o.1.dialer.nextAttempt)
      (connected : ∀ a, o.1.dialer.phase = .connected a →
        h.dialer.phase = .connected a ∧ o.1.link = h.link)
  | opened (a : Attempt) (input : i = .link a .opened) (before : h.dialer.phase = .connecting a)
      (after : o.1.dialer.phase = .connected a) (link : o.1.link = some ⟨a, true⟩)
      (next : o.1.dialer.nextAttempt = h.dialer.nextAttempt) (summary : h.activity.summary = .empty)
      (sends : sends o.2 = []) (sent : o.1.activity.sent = h.activity.sent)
  | told (a : Attempt) (before : h.dialer.phase.attempt? = some a)
      (after : o.1.dialer.phase = .connected a) (link : o.1.link = some ⟨a, true⟩)
      (next : o.1.dialer.nextAttempt = h.dialer.nextAttempt)
      (sends : sends o.2 = [(a, h.activity.summary)])
      (sent : o.1.activity.sent = some h.activity.summary)

variable {h} {i : HubInput} {o : Outcome}

theorem TellMove.of_same (hs : sends o.2 = []) (ha : o.1.activity.sent = h.activity.sent)
    (hd : o.1.dialer = h.dialer) (hl : o.1.link = h.link) : TellMove h i o :=
  .silent hs ha (Nat.le_of_eq (by rw [hd])) (fun a hp => Or.inl (hd ▸ hp))
    fun a hp => ⟨hd ▸ hp, hl⟩

theorem GoesOnAlone.tellMove (ho : h.GoesOnAlone o) : TellMove h i o :=
  .silent ho.sends (by rw [ho.activity]) ho.next (fun a hp => Or.inr (ho.connecting a hp))
    fun a hp => absurd hp (ho.connected a)

/-- Over a connection that is up goes what is picked of activity. -/
theorem flush_of_connected {a : Attempt} (hp : h.dialer.phase = .connected a)
    (hl : h.link = some ⟨a, true⟩) (pick : Activity → Activity × Option ActivitySummary) :
    h.flush pick = ({ h with activity := (pick h.activity).1 },
      ((pick h.activity).2.map fun s => HubEffect.send a s).toList) := by
  unfold flush
  rw [Dialer.linkState, hp, hl]
  rfl

theorem opened_tellMove (a : Attempt) : TellMove h (.link a .opened) (h.opened a) := by
  unfold opened
  by_cases hp : h.dialer.phase = .connecting a
  · rw [Dialer.opened_of_connecting hp]
    dsimp only [Outcome.andThen]
    rw [(publish_frame _).1, flush_of_connected rfl rfl]
    rcases h.activity.all_cases with ⟨hnone, hall⟩ | hall
    · exact .opened a rfl hp rfl rfl rfl hnone (by simp [hall]) (by simp [hall])
    · exact .told a (by rw [hp]; rfl) rfl rfl rfl (by simp [hall]) (by simp [hall])
  · rw [Dialer.opened_of_not_connecting hp]
    exact .of_same rfl rfl rfl rfl

theorem ended_tellMove (a : Attempt) (f : Failure) : TellMove h i (h.ended a f) := by
  unfold ended
  split
  · rename_i dialer next hd
    have hn : dialer.nextAttempt = h.dialer.nextAttempt := by
      rw [← h.dialer.failed_nextAttempt a f, hd]
    -- The retry starts from a hub whose connection is let go already.
    let h' : Hub := { h with dialer, link := none, published := dialer.linkState }
    have hr := h'.retry_goesOnAlone (Dialer.failed_attempt? hd) next
    have hs := hr.sends
    have hc := hr.connecting
    refine GoesOnAlone.tellMove ⟨by simpa using hs, by simpa using hr.activity, ?_, ?_, ?_⟩
    · simpa [h', hn] using hr.next
    · simpa [h', hn] using hc
    · simpa using hr.connected
  · exact .of_same rfl rfl rfl rfl

/-- As long as the connection that is up is its attempt's own, every input tells of
activity in one of those ways. -/
theorem step_tellMove (hup : ∀ a, h.dialer.phase = .connected a → h.link = some ⟨a, true⟩)
    (i : HubInput) : TellMove h i (h.step i) := by
  cases i with
  | fromTab m inbox =>
    cases m with
    | start tab scope =>
      cases inbox with
      | none => exact .of_same rfl rfl rfl rfl
      | some inbox =>
        have hh := (h.attach_frame tab scope inbox).1
        exact .of_same (h.attach_sends tab scope inbox) (by simp only [step, fromTab, hh])
          (by simp only [step, fromTab, hh]) (by simp only [step, fromTab, hh])
    | activity tab subject active =>
      simp only [step, fromTab]
      split <;> exact .of_same rfl rfl rfl rfl
  | tabGone tab =>
    simp only [step, tabGone]
    split <;> exact .of_same rfl rfl rfl rfl
  | link a e =>
    simp only [step, onLink]
    split
    · cases e with
      | opened => exact opened_tellMove a
      | message m => cases m <;> exact .of_same (sends_map_deliver _) rfl rfl rfl
      | ended f => exact ended_tellMove a f
    · exact .of_same rfl rfl rfl rfl
  | retryDue =>
    simp only [step, retryDue]
    split
    · have hd := dial_goesOnAlone { h with retryPending := false }
      exact GoesOnAlone.tellMove ⟨hd.sends, hd.activity, hd.next, hd.connecting, hd.connected⟩
    · exact .of_same rfl rfl rfl rfl
  | flushDue =>
    simp only [step]
    cases hp : h.dialer.phase with
    | connected a =>
      have hl := hup a hp
      rw [flush_of_connected hp hl]
      rcases h.activity.news_cases with ⟨_, hnews⟩ | hnews
      · exact .of_same (by simp [hnews]) (by simp [hnews]) rfl rfl
      · exact .told a (by rw [hp]; rfl) hp hl rfl (by simp [hnews]) (by simp [hnews])
    | _ =>
      have hquiet : h.flush Activity.news = (h, []) := by
        unfold flush
        rw [Dialer.linkState, hp]
        rfl
      rw [hquiet]
      exact .of_same rfl rfl rfl rfl

/-! ## From the start -/

/-- Nothing was sent on the connection of an attempt. -/
def Unheard (c : HubConfig) (is : List HubInput) (a : Attempt) : Prop :=
  ∀ x ∈ sends (life c is).2, x.1 ≠ a

/-- When the connection of an attempt opened, nothing was known of activity, and
nothing was sent since. -/
def OpenedIdle (c : HubConfig) (is : List HubInput) (a : Attempt) : Prop :=
  ∃ before since, is = before ++ .link a .opened :: since ∧
    (life c before).1.dialer.phase = .connecting a ∧
    (life c before).1.activity.summary = .empty ∧
    sends (life c before).2 = sends (life c is).2

/-- A hub remembers what it sent last, over whatever connection. What it sent last
went over the connection that is up, unless that opened with nothing to send. -/
structure RemembersSent (c : HubConfig) (is : List HubInput) : Prop where
  sent : (life c is).1.activity.sent = lastSent (life c is).2
  numbered : ∀ x ∈ sends (life c is).2, x.1 < (life c is).1.dialer.nextAttempt
  current : ∀ a, (life c is).1.dialer.phase.attempt? = some a →
    a < (life c is).1.dialer.nextAttempt
  connecting : ∀ a, (life c is).1.dialer.phase = .connecting a → Unheard c is a
  link : ∀ a, (life c is).1.dialer.phase = .connected a → (life c is).1.link = some ⟨a, true⟩
  connected : ∀ a, (life c is).1.dialer.phase = .connected a →
    (∃ s, (sends (life c is).2).getLast? = some (a, s)) ∨ Unheard c is a ∧ OpenedIdle c is a

theorem remembersSent_start (c : HubConfig) : RemembersSent c [] where
  sent := rfl
  numbered := by simp [life, start_eq, Outcome.andThen]
  current a ha := by
    obtain rfl : 1 = a := by simpa [life, start_eq, Outcome.andThen, Phase.attempt?] using ha
    simp [life, start_eq, Outcome.andThen]
  connecting a _ := by simp [Unheard, life, start_eq, Outcome.andThen]
  link a ha := by simp [life, start_eq, Outcome.andThen] at ha
  connected a ha := by simp [life, start_eq, Outcome.andThen] at ha

variable {c : HubConfig} {is : List HubInput}

theorem OpenedIdle.snoc {a : Attempt} {i : HubInput} (ho : OpenedIdle c is a)
    (hall : sends (life c (is ++ [i])).2 = sends (life c is).2) : OpenedIdle c (is ++ [i]) a := by
  obtain ⟨before, since, rfl, hp, hs, hbefore⟩ := ho
  exact ⟨before, since ++ [i], by simp, hp, hs, hbefore.trans hall.symm⟩

/-- While a connection is up, its number and what was sent on it are all there is to say. -/
theorem RemembersSent.of_connected {a : Attempt}
    (hp : (life c is).1.dialer.phase = .connected a) (hl : (life c is).1.link = some ⟨a, true⟩)
    (ha : a < (life c is).1.dialer.nextAttempt)
    (hs : (life c is).1.activity.sent = lastSent (life c is).2)
    (hn : ∀ x ∈ sends (life c is).2, x.1 < (life c is).1.dialer.nextAttempt)
    (hc : (∃ s, (sends (life c is).2).getLast? = some (a, s)) ∨
      Unheard c is a ∧ OpenedIdle c is a) : RemembersSent c is := by
  have hsame : ∀ b, (life c is).1.dialer.phase.attempt? = some b → a = b := by
    intro b hb
    rw [hp] at hb
    exact Option.some.inj hb
  refine ⟨hs, hn, fun b hb => hsame b hb ▸ ha, fun b hb => ?_, fun b hb => ?_, fun b hb => ?_⟩
  · simp [hp] at hb
  · rw [← hsame b (by rw [hb]; rfl), hl]
  · rw [← hsame b (by rw [hb]; rfl)]
    exact hc

/-- An input that sends nothing and brings no connection up. -/
theorem RemembersSent.silent (hr : RemembersSent c is) {i : HubInput}
    (hsends : sends ((life c is).1.step i).2 = [])
    (hsent : ((life c is).1.step i).1.activity.sent = (life c is).1.activity.sent)
    (hnext : (life c is).1.dialer.nextAttempt ≤ ((life c is).1.step i).1.dialer.nextAttempt)
    (hconnecting : ∀ a, ((life c is).1.step i).1.dialer.phase = .connecting a →
      (life c is).1.dialer.phase = .connecting a ∨ a = (life c is).1.dialer.nextAttempt ∧
        a < ((life c is).1.step i).1.dialer.nextAttempt)
    (hconnected : ∀ a, ((life c is).1.step i).1.dialer.phase = .connected a →
      (life c is).1.dialer.phase = .connected a ∧
        ((life c is).1.step i).1.link = (life c is).1.link) :
    RemembersSent c (is ++ [i]) := by
  have hhub : (life c (is ++ [i])).1 = ((life c is).1.step i).1 := by rw [life_snoc, andThen_fst]
  have hall : sends (life c (is ++ [i])).2 = sends (life c is).2 := by simp [life_snoc, hsends]
  rw [← hhub] at hsent hnext hconnecting hconnected
  have hcurrent : ∀ {a}, (life c is).1.dialer.phase.attempt? = some a →
      a < (life c (is ++ [i])).1.dialer.nextAttempt :=
    fun ha => Nat.lt_of_lt_of_le (hr.current _ ha) hnext
  refine ⟨?_, ?_, fun a ha => ?_, fun a ha => ?_, fun a ha => ?_, fun a ha => ?_⟩
  · rw [lastSent, hall, hsent, hr.sent, lastSent]
  · rw [hall]
    exact fun x hx => Nat.lt_of_lt_of_le (hr.numbered x hx) hnext
  · rcases Phase.attempt?_eq_some_iff.1 ha with hp | hp
    · rcases hconnecting a hp with hp | ⟨_, hlt⟩
      · exact hcurrent (Phase.attempt?_eq_some_iff.2 (Or.inl hp))
      · exact hlt
    · exact hcurrent (Phase.attempt?_eq_some_iff.2 (Or.inr (hconnected a hp).1))
  · rw [Unheard, hall]
    rcases hconnecting a ha with hp | ⟨rfl, _⟩
    · exact hr.connecting a hp
    · exact fun x hx => Nat.ne_of_lt (hr.numbered x hx)
  · obtain ⟨hp, hl⟩ := hconnected a ha
    exact hl.trans (hr.link a hp)
  · rw [Unheard, hall]
    exact (hr.connected a (hconnected a ha).1).imp id fun ⟨hu, ho⟩ => ⟨hu, ho.snoc hall⟩

theorem RemembersSent.step (hr : RemembersSent c is) (i : HubInput) :
    RemembersSent c (is ++ [i]) := by
  have hlife : life c (is ++ [i]) =
      (((life c is).1.step i).1, (life c is).2 ++ ((life c is).1.step i).2) := life_snoc c is i
  cases step_tellMove hr.link i with
  | silent hsends hsent hnext hconnecting hconnected =>
    exact hr.silent hsends hsent hnext hconnecting hconnected
  | opened a hinput hbefore hafter hlink hnext hsummary hsends hsent =>
    have hall : sends (life c (is ++ [i])).2 = sends (life c is).2 := by simp [hlife, hsends]
    have ha := hr.current a (Phase.attempt?_eq_some_iff.2 (Or.inl hbefore))
    refine .of_connected (a := a) ?_ ?_ ?_ ?_ ?_ (Or.inr ⟨?_, is, [], ?_⟩)
    · rw [hlife, hafter]
    · rw [hlife, hlink]
    · rwa [hlife, hnext]
    · rw [lastSent, hall, hlife, hsent, hr.sent, lastSent]
    · rw [hall, hlife, hnext]
      exact hr.numbered
    · rw [Unheard, hall]
      exact hr.connecting a hbefore
    · exact ⟨by rw [hinput], hbefore, hsummary, hall.symm⟩
  | told a hbefore hafter hlink hnext hsends hsent =>
    have hall : sends (life c (is ++ [i])).2 =
        sends (life c is).2 ++ [(a, (life c is).1.activity.summary)] := by simp [hlife, hsends]
    have ha := hr.current a hbefore
    refine .of_connected (a := a) ?_ ?_ ?_ ?_ ?_ (Or.inl ⟨_, by rw [hall, List.getLast?_concat]⟩)
    · rw [hlife, hafter]
    · rw [hlife, hlink]
    · rwa [hlife, hnext]
    · simp [lastSent, hlife, hsends, hsent]
    · rw [hall, hlife, hnext]
      intro x hx
      rcases List.mem_append.1 hx with hx | hx
      · exact hr.numbered x hx
      · obtain rfl := List.mem_singleton.1 hx
        exact ha

theorem remembersSent (c : HubConfig) (is : List HubInput) : RemembersSent c is := by
  induction is using List.reverseRecOn with
  | nil => exact remembersSent_start c
  | append_singleton is i ih => exact ih.step i

/-! ## The law -/

/-- After a look for news while a connection is up, what is known is what was sent
last on that connection, or nothing was sent on it. Then nothing is known, or the
connection opened when nothing was known and what is known now is, by chance, what was
sent last over an earlier one. -/
theorem activity_reaches_the_connection_or_was_sent_before (c : HubConfig) (is : List HubInput)
    {a : Attempt} (hup : (life c is).1.dialer.phase = .connected a) :
    let o := life c (is ++ [.flushDue])
    let known := o.1.activity.summary
    o.1.dialer.phase = .connected a ∧ o.1.link = some ⟨a, true⟩ ∧
    ((sentOn a o.2).getLast? = some known ∨
      sentOn a o.2 = [] ∧ known = .empty ∨
      sentOn a o.2 = [] ∧ known ≠ .empty ∧ OpenedIdle c is a ∧ lastSent o.2 = some known) := by
  have hr := remembersSent c is
  have hl := hr.link a hup
  have hflush : (life c is).1.step .flushDue = _ := flush_of_connected hup hl Activity.news
  dsimp only
  rw [life_snoc]
  dsimp only [Outcome.andThen]
  rw [hflush]
  refine ⟨hup, hl, ?_⟩
  rcases (life c is).1.activity.news_cases with ⟨hsame, hnews⟩ | hnews
  · rw [hnews]
    simp only [Option.map_none, Option.toList_none, List.append_nil]
    rcases hr.connected a hup with ⟨s, hs⟩ | ⟨hu, ho⟩
    · left
      rw [getLast?_sentOn hs, ← hsame, hr.sent, lastSent, hs]
      rfl
    · right
      have hnone := sentOn_eq_nil hu
      by_cases hk : (life c is).1.activity.summary = .empty
      · exact Or.inl ⟨hnone, hk⟩
      · refine Or.inr ⟨hnone, hk, ho, ?_⟩
        rw [← hr.sent]
        cases hsent : (life c is).1.activity.sent with
        | none => exact absurd (by rw [← hsame, hsent]; rfl) hk
        | some s => rw [← hsame, hsent]; rfl
  · left
    rw [hnews]
    exact getLast?_sentOn (by simp; rfl)

/-- A tab works on puzzle 4, which the first connection is told. -/
def morning : List HubInput :=
  [.link 1 .opened, .fromTab (.start ⟨1⟩ none) (some 0), .fromTab (.activity ⟨1⟩ ⟨4⟩ true) none,
    .flushDue, .link 1 (.ended (.error "reset"))]

/-- The second connection is told the same, and then that nobody works on puzzle 4. -/
theorem the_second_connection_is_told_too :
    let o := life {} (morning ++ [.retryDue, .link 2 .opened,
      .fromTab (.activity ⟨1⟩ ⟨4⟩ false) none, .flushDue])
    o.1.dialer.phase = .connected 2 ∧
    (sentOn 2 o.2).getLast? = some ((KeyedMap.empty : ActivitySummary).insert ⟨4⟩ false) := by
  have hlaw := activity_reaches_the_connection_or_was_sent_before {} (morning ++ [.retryDue,
    .link 2 .opened, .fromTab (.activity ⟨1⟩ ⟨4⟩ false) none]) (a := 2) (by decide)
  have hheard : sentOn 2 (life {} (morning ++ [.retryDue, .link 2 .opened,
      .fromTab (.activity ⟨1⟩ ⟨4⟩ false) none, .flushDue])).2 ≠ [] := by decide
  obtain ⟨hup, -, hlast | ⟨hnone, -⟩ | ⟨hnone, -⟩⟩ := hlaw
  · exact ⟨hup, hlast.trans (by decide)⟩
  · exact absurd hnone hheard
  · exact absurd hnone hheard

/-- If the tab goes before the second connection opens, and another comes after that
and works on the same puzzle, the second connection is not told. -/
theorem the_second_connection_is_never_told :
    let o := life {} (morning ++ [.tabGone ⟨1⟩, .retryDue, .link 2 .opened,
      .fromTab (.start ⟨2⟩ none) (some 1), .fromTab (.activity ⟨2⟩ ⟨4⟩ true) none, .flushDue])
    o.1.dialer.phase = .connected 2 ∧ sentOn 2 o.2 = [] ∧
    o.1.activity.summary = (KeyedMap.empty : ActivitySummary).insert ⟨4⟩ true ∧
    o.1.activity.summary ≠ .empty := by decide

end Hub

end HuntBoard
