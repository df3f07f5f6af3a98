-- What comes out of a socket. Of all its messages the hub gets those of the stream in their order
-- up to the end, and then is told once how it ended; what the hub wants sent in between goes out in
-- its order and has no part in that.
import HuntBoard.Hub
import HuntBoard.Server.Socket
import Mathlib.Data.List.Basic
import Mathlib.Data.List.TakeWhile

namespace HuntBoard

/-! ## Messages of a socket -/

namespace SocketMessage

/-- The message of the stream that a message of the socket carries. Text that cannot be decoded, bytes
and signs of life carry none. -/
def live? : SocketMessage → Option LiveMessage
  | .text s =>
    match LiveMessage.decode s with
    | .ok m => some m
    | .error _ => none
  | .other | .closed _ | .failed _ | .ended => none

/-- How the stream ends with a message of the socket. -/
def ending? : SocketMessage → Option Failure
  | .closed (some (code, reason)) => some (.closed code reason)
  | .closed none => some (.closed 1005 "")
  | .failed message => some (.error message)
  | .ended => some (.error "stream ended")
  | .text _ | .other => none

/-- The stream goes on behind a message. -/
def goesOn (m : SocketMessage) : Bool := m.ending?.isNone

/-- What a hub is to hear of the messages of a socket: those of the stream in front of its end, and
then the end. -/
def heard (ms : List SocketMessage) : List LinkEvent :=
  ((ms.takeWhile goesOn).filterMap live?).map .message ++ (ms.findSome? ending?).toList.map .ended

end SocketMessage

/-! ## What a pump takes and gives -/

namespace PumpInput

def message? : PumpInput → Option SocketMessage
  | .received m => some m
  | .send _ | .sendFailed _ | .released | .unheard => none

def request? : PumpInput → Option ActivitySummary
  | .send a => some a
  | .received _ | .sendFailed _ | .released | .unheard => none

/-- Nothing but the traffic of a connection that is used: a message comes, or a summary is sent. -/
def isTraffic : PumpInput → Bool
  | .received _ | .send _ => true
  | .sendFailed _ | .released | .unheard => false

/-- The messages of the socket, in order. -/
def messages (inputs : List PumpInput) : List SocketMessage := inputs.filterMap message?

/-- The summaries that are to be sent, in order. -/
def requests (inputs : List PumpInput) : List ActivitySummary := inputs.filterMap request?

/-- The stream goes on behind an input. -/
def goesOn (i : PumpInput) : Bool := i.message?.all SocketMessage.goesOn

end PumpInput

namespace PumpEffect

/-- What the hub hears of an effect. -/
def event? : PumpEffect → Option LinkEvent
  | .deliver m => some (.message m)
  | .finished f => some (.ended f)
  | .sendText _ | .closeSocket => none

/-- What the server is sent by an effect. -/
def sent? : PumpEffect → Option String
  | .sendText s => some s
  | .deliver _ | .finished _ | .closeSocket => none

/-- What the hub hears, in order. -/
def events (effects : List PumpEffect) : List LinkEvent := effects.filterMap event?

/-- What the server is sent, in order. -/
def texts (effects : List PumpEffect) : List String := effects.filterMap sent?

@[simp] theorem events_append (effects more : List PumpEffect) :
    events (effects ++ more) = events effects ++ events more := List.filterMap_append

@[simp] theorem texts_append (effects more : List PumpEffect) :
    texts (effects ++ more) = texts effects ++ texts more := List.filterMap_append

end PumpEffect

open PumpEffect PumpInput

/-! ## The stream up to its end -/

namespace SocketMessage

variable {ms : List SocketMessage} {m : SocketMessage} {f : Failure}

/-- Nobody hears of what comes behind the end. -/
theorem heard_of_ending (h : m.ending? = some f) (rest : List SocketMessage) :
    heard (m :: rest) = [.ended f] := by
  have hstop : ¬ m.goesOn := by simp [goesOn, h]
  unfold heard
  rw [List.takeWhile_cons_of_neg hstop, List.findSome?_cons, h]
  rfl

theorem heard_append (h : ∀ m ∈ ms, m.goesOn) (rest : List SocketMessage) :
    heard (ms ++ rest) = (ms.filterMap live?).map .message ++ heard rest := by
  induction ms with
  | nil => rfl
  | cons m ms ih =>
    rw [List.forall_mem_cons] at h
    have hnone : m.ending? = none := by simpa [goesOn] using h.1
    have hrest := ih h.2
    unfold heard at hrest ⊢
    rw [List.cons_append, List.takeWhile_cons_of_pos h.1, List.findSome?_cons, hnone]
    cases hlive : m.live? with
    | none => simpa [hlive] using hrest
    | some l => simpa [hlive] using hrest

/-- Without an end, the hub hears the messages of the stream and nothing else. -/
theorem heard_of_goesOn (h : ∀ m ∈ ms, m.goesOn) :
    heard ms = (ms.filterMap live?).map .message := by
  have hall := heard_append h []
  rw [List.append_nil] at hall
  rw [hall]
  exact List.append_nil _

end SocketMessage

/-! ## The pump -/

namespace Pump

variable {inputs : List PumpInput} {i : PumpInput}

theorem run_cons (p : Pump) (i : PumpInput) (rest : List PumpInput) :
    p.run (i :: rest) = (((p.step i).1.run rest).1, (p.step i).2 ++ ((p.step i).1.run rest).2) := rfl

theorem run_append (p : Pump) (xs ys : List PumpInput) :
    p.run (xs ++ ys) = (((p.run xs).1.run ys).1, (p.run xs).2 ++ ((p.run xs).1.run ys).2) := by
  induction xs generalizing p with
  | nil => rfl
  | cons i xs ih => rw [List.cons_append, run_cons, run_cons, ih, List.append_assoc]

/-- A pump that has ended does nothing more. -/
theorem run_of_ended {p : Pump} (h : p.running = false) (rest : List PumpInput) :
    p.run rest = (p, []) := by
  induction rest with
  | nil => rfl
  | cons i rest ih =>
    have hstep : p.step i = (p, []) := by simp [step, h]
    rw [run_cons, hstep, ih]
    rfl

/-- With an input that ends it, a pump has its last effects. -/
theorem run_of_last {p : Pump} {last : List PumpEffect} (h : ({} : Pump).step i = (p, last))
    (hp : p.running = false) (rest : List PumpInput) :
    ({} : Pump).run (i :: rest) = (p, last) := by
  rw [run_cons, h, run_of_ended hp, List.append_nil]

/-- A message behind which the stream goes on is handed on if it is one of the stream, and the pump
stays as it is. -/
theorem step_of_message {m : SocketMessage} (h : m.goesOn) :
    ({} : Pump).step (.received m) = ({}, (m.live?.map .deliver).toList) := by
  cases m with
  | text s =>
    simp only [step, receive, SocketMessage.live?]
    cases LiveMessage.decode s with
    | ok l => rfl
    | error e => rfl
  | other => rfl
  | closed frame =>
    obtain _ | ⟨code, reason⟩ := frame
    · cases h
    · cases h
  | failed message => cases h
  | ended => cases h

/-- The message of the socket that ends the stream ends the pump, and the hub is told how. -/
theorem step_of_ending {m : SocketMessage} {f : Failure} (h : m.ending? = some f) :
    ({} : Pump).step (.received m) = ({ running := false }, [.finished f]) := by
  cases m with
  | text s => cases h
  | other => cases h
  | closed frame =>
    obtain _ | ⟨code, reason⟩ := frame
    · obtain rfl := Option.some.inj h
      rfl
    · obtain rfl := Option.some.inj h
      rfl
  | failed message =>
    obtain rfl := Option.some.inj h
    rfl
  | ended =>
    obtain rfl := Option.some.inj h
    rfl

/-- As long as the stream goes on, each message of the stream is handed on and each summary is sent
in its turn. -/
theorem run_of_goesOn (htraffic : ∀ i ∈ inputs, i.isTraffic) (hgoes : ∀ i ∈ inputs, i.goesOn) :
    (({} : Pump).run inputs).1 = {} ∧
    events (({} : Pump).run inputs).2 = ((messages inputs).filterMap SocketMessage.live?).map .message ∧
    texts (({} : Pump).run inputs).2 = (requests inputs).map ActivitySummary.frame := by
  induction inputs with
  | nil => exact ⟨rfl, rfl, rfl⟩
  | cons i inputs ih =>
    rw [List.forall_mem_cons] at htraffic hgoes
    obtain ⟨hpump, hevents, htexts⟩ := ih htraffic.2 hgoes.2
    cases i with
    | received m =>
      have hmessages : messages (.received m :: inputs) = m :: messages inputs := rfl
      rw [run_cons, step_of_message hgoes.1, hmessages]
      refine ⟨hpump, ?_, ?_⟩
      · rw [events_append, hevents]
        cases hlive : m.live? with
        | none => simp [events, hlive]
        | some l => simp [events, event?, hlive]
      · rw [texts_append, htexts]
        cases m.live? <;> rfl
    | send a =>
      have hrequests : requests (.send a :: inputs) = a :: requests inputs := rfl
      have hstep : ({} : Pump).step (.send a) = ({}, [.sendText a.frame]) := rfl
      rw [run_cons, hstep, hrequests]
      refine ⟨hpump, hevents, ?_⟩
      rw [texts_append, htexts]
      rfl
    | sendFailed message => cases htraffic.1
    | released => cases htraffic.1
    | unheard => cases htraffic.1

/-- Traffic with an end of the stream in it has a first one. -/
theorem split_at_ending (htraffic : ∀ i ∈ inputs, i.isTraffic) (hend : ¬ ∀ i ∈ inputs, i.goesOn) :
    ∃ before m f after, inputs = before ++ .received m :: after ∧ (∀ i ∈ before, i.goesOn) ∧
      m.ending? = some f := by
  obtain ⟨i, hi⟩ : ∃ i, inputs.find? (fun i => !i.goesOn) = some i := by
    rw [← Option.isSome_iff_exists, List.find?_isSome]
    simpa using hend
  obtain ⟨hstop, before, after, rfl, hbefore⟩ := List.find?_eq_some_iff_append.1 hi
  have hti := htraffic i (List.mem_append_right _ List.mem_cons_self)
  cases i with
  | received m =>
    obtain ⟨f, hf⟩ : ∃ f, m.ending? = some f := by
      rw [← Option.isSome_iff_exists, ← Option.not_isNone]
      exact hstop
    exact ⟨before, m, f, after, rfl, fun i hi => by simpa using hbefore i hi, hf⟩
  | send a => cases hstop
  | sendFailed message => cases hti
  | released => cases hti
  | unheard => cases hti

theorem goesOn_of_mem_messages (h : ∀ i ∈ inputs, i.goesOn) : ∀ m ∈ messages inputs, m.goesOn := by
  intro m hm
  obtain ⟨i, hi, him⟩ := List.mem_filterMap.1 hm
  have hgoes := h i hi
  rw [PumpInput.goesOn, him] at hgoes
  exact hgoes

theorem messages_append (xs ys : List PumpInput) :
    messages (xs ++ ys) = messages xs ++ messages ys := List.filterMap_append

/-- Where the stream ends, the hub is told of the end behind all that came before, and nothing more
is sent. -/
theorem run_up_to_ending {before : List PumpInput} {m : SocketMessage} {f : Failure}
    (htraffic : ∀ i ∈ before, i.isTraffic) (hbefore : ∀ i ∈ before, i.goesOn)
    (hf : m.ending? = some f) (rest : List PumpInput) :
    let effects := (({} : Pump).run (before ++ .received m :: rest)).2
    events effects = SocketMessage.heard (messages (before ++ .received m :: rest)) ∧
    texts effects = (requests before).map ActivitySummary.frame := by
  intro effects
  obtain ⟨hpump, hevents, htexts⟩ := run_of_goesOn htraffic hbefore
  have heffects : effects = (({} : Pump).run before).2 ++ [.finished f] := by
    simp only [effects]
    rw [run_append, hpump, run_of_last (step_of_ending hf) rfl]
  have hmessages : messages (.received m :: rest) = m :: messages rest := rfl
  constructor
  · rw [heffects, events_append, hevents, messages_append, hmessages,
      SocketMessage.heard_append (goesOn_of_mem_messages hbefore), SocketMessage.heard_of_ending hf]
    rfl
  · rw [heffects, texts_append, htexts]
    exact List.append_nil _

theorem run_of_isTraffic (htraffic : ∀ i ∈ inputs, i.isTraffic) :
    let effects := (({} : Pump).run inputs).2
    events effects = SocketMessage.heard (messages inputs) ∧
    texts effects = (requests (inputs.takeWhile PumpInput.goesOn)).map ActivitySummary.frame := by
  intro effects
  by_cases hgoes : ∀ i ∈ inputs, i.goesOn
  · obtain ⟨-, hevents, htexts⟩ := run_of_goesOn htraffic hgoes
    rw [SocketMessage.heard_of_goesOn (goesOn_of_mem_messages hgoes),
      List.takeWhile_eq_self_iff.2 hgoes]
    exact ⟨hevents, htexts⟩
  · obtain ⟨before, m, f, rest, rfl, hbefore, hf⟩ := split_at_ending htraffic hgoes
    have hstop : ¬ PumpInput.goesOn (.received m) := by
      simp [PumpInput.goesOn, PumpInput.message?, SocketMessage.goesOn, hf]
    rw [List.takeWhile_append_of_pos hbefore, List.takeWhile_cons_of_neg hstop, List.append_nil]
    exact run_up_to_ending (fun i hi => htraffic i (List.mem_append_left _ hi)) hbefore hf rest

/-- If the hub lets go, the connection is closed and nothing else is done. -/
theorem run_of_released (htraffic : ∀ i ∈ inputs, i.isTraffic) (hgoes : ∀ i ∈ inputs, i.goesOn)
    (after : List PumpInput) :
    (({} : Pump).run (inputs ++ .released :: after)).2 =
      (({} : Pump).run inputs).2 ++ [.closeSocket] := by
  have hstep : ({} : Pump).step .released = ({ running := false }, [.closeSocket]) := rfl
  rw [run_append, (run_of_goesOn htraffic hgoes).1, run_of_last hstep rfl]

/-! ## The law -/

/-- As long as the hub keeps its ends of a connection and what it wants sent can be sent, it hears of
the messages of the socket those of the stream, in their order, up to the first that ends the stream,
and then once how that ended it; whatever else comes is passed over. The summaries that are taken
up to there are sent in their order, each once. If the hub lets go of the connection while the
stream goes on, it has heard the first part of that and of no end, and hears nothing more. -/
theorem the_stream_comes_through_up_to_its_end (inputs after : List PumpInput)
    (htraffic : ∀ i ∈ inputs, i.isTraffic) :
    let effects := (({} : Pump).run inputs).2
    let released := (({} : Pump).run (inputs ++ .released :: after)).2
    events effects = SocketMessage.heard (messages inputs) ∧
    texts effects = (requests (inputs.takeWhile PumpInput.goesOn)).map ActivitySummary.frame ∧
    ((∀ i ∈ inputs, i.goesOn) →
      events released <+: SocketMessage.heard (messages (inputs ++ .released :: after)) ∧
      (∀ f, .ended f ∉ events released) ∧
      texts released = (requests inputs).map ActivitySummary.frame) := by
  intro effects released
  obtain ⟨hevents, htexts⟩ := run_of_isTraffic htraffic
  refine ⟨hevents, htexts, fun hgoes => ?_⟩
  obtain ⟨-, hbefore, hsent⟩ := run_of_goesOn htraffic hgoes
  have hreleased : released = (({} : Pump).run inputs).2 ++ [.closeSocket] :=
    run_of_released htraffic hgoes after
  have hheard : events released = ((messages inputs).filterMap SocketMessage.live?).map .message := by
    rw [hreleased, events_append, hbefore]
    exact List.append_nil _
  refine ⟨?_, fun f => ?_, ?_⟩
  · rw [hheard, messages_append, SocketMessage.heard_append (goesOn_of_mem_messages hgoes)]
    exact List.prefix_append _ _
  · rw [hheard]
    simp
  · rw [hreleased, texts_append, hsent]
    exact List.append_nil _

/-- Someone looks at puzzle 7. -/
def oneLooks : ActivitySummary := KeyedMap.empty.insert ⟨7⟩ true

/-- A sign of life, a summary to send, a text that is no message, and that nobody is there. -/
def quietNight : List PumpInput :=
  [.received .other, .send oneLooks, .received (.text "hello"),
    .received (.text "\x7b\"event\":\"presence\",\"data\":\x7b\x7d\x7d")]

/-- The server goes, and what it still says is not heard. -/
def gone : List PumpInput := [.received (.closed (some (4004, "gone"))), .received (.text "bye")]

/-- Of a quiet night the hub hears that nobody is there, and how the server went; not so if it lets
go of the connection first. -/
theorem the_hub_hears_that_the_server_is_gone :
    let night := (({} : Pump).run (quietNight ++ gone)).2
    let released := (({} : Pump).run (quietNight ++ .released :: gone)).2
    (∀ i ∈ quietNight ++ gone, i.isTraffic) ∧ (∀ i ∈ quietNight, i.goesOn) ∧
    events night = [.message (.presence .empty), .ended (.closed 4004 "gone")] ∧
    texts night = [oneLooks.frame] ∧
    events released <+: events night ∧ (∀ f, .ended f ∉ events released) ∧
    texts released = [oneLooks.frame] := by
  intro night released
  have htraffic : ∀ i ∈ quietNight ++ gone, i.isTraffic := by decide
  have hgoes : ∀ i ∈ quietNight, i.goesOn := by decide
  have hheard : SocketMessage.heard (messages (quietNight ++ gone)) =
      [.message (.presence .empty), .ended (.closed 4004 "gone")] := by decide +kernel
  have htaken : requests ((quietNight ++ gone).takeWhile PumpInput.goesOn) = [oneLooks] := by rfl
  have hmessages : messages (quietNight ++ .released :: gone) = messages (quietNight ++ gone) := rfl
  obtain ⟨hevents, htexts, -⟩ :=
    the_stream_comes_through_up_to_its_end (quietNight ++ gone) [] htraffic
  obtain ⟨-, -, hreleased⟩ := the_stream_comes_through_up_to_its_end quietNight gone
    fun i hi => htraffic i (List.mem_append_left _ hi)
  obtain ⟨hfirst, hopen, hsent⟩ := hreleased hgoes
  rw [hmessages, ← hevents] at hfirst
  rw [htaken] at htexts
  exact ⟨htraffic, hgoes, hevents.trans hheard, htexts, hfirst, hopen, hsent⟩

end Pump

end HuntBoard
