-- What a hub sends, and to which tab. Whatever comes in, it greets the tab that attaches, or
-- tells all tabs that have their seats what the stream says and what became of it.
import HuntBoard.Proofs.Inbox
import Mathlib.Data.List.Basic

namespace HuntBoard

open HubEffect

/-! ## States among messages -/

namespace HubMessage

/-- The state of the stream that a message tells. -/
def state? : HubMessage → Option LinkState
  | .status s => some s
  | _ => none

/-- The states that messages tell, in order. -/
def states (ms : List HubMessage) : List LinkState := ms.filterMap state?

@[simp] theorem states_append (ms ns : List HubMessage) :
    states (ms ++ ns) = states ms ++ states ns := List.filterMap_append

end HubMessage

open HubMessage

/-- A message of the stream, as the tabs get it. -/
def LiveMessage.forTabs : LiveMessage → HubMessage
  | .sync e => .sync e
  | .settings s => .settings s
  | .presence p => .presence p
  | .users u => .users u

theorem LiveMessage.forTabs_state? (m : LiveMessage) : m.forTabs.state? = none := by
  cases m <;> rfl

/-! ## Parcels -/

namespace Parcel

/-- The states that some parcels tell, in order. -/
def statesOf (which : Parcel → Bool) (ps : List Parcel) : List LinkState :=
  states ((ps.filter which).map (·.message))

/-- The states that parcels tell a tab, in order. -/
def toldTo (tab : TabId) (ps : List Parcel) : List LinkState := statesOf (·.tab = tab) ps

variable {which : Parcel → Bool} {ps : List Parcel} {s : LinkState}

@[simp] theorem statesOf_append (which : Parcel → Bool) (ps qs : List Parcel) :
    statesOf which (ps ++ qs) = statesOf which ps ++ statesOf which qs := by
  simp [statesOf]

@[simp] theorem toldTo_append (tab : TabId) (ps qs : List Parcel) :
    toldTo tab (ps ++ qs) = toldTo tab ps ++ toldTo tab qs := statesOf_append ..

theorem mem_statesOf :
    s ∈ statesOf which ps ↔ ∃ p ∈ ps, which p ∧ p.message.state? = some s := by
  simp [statesOf, states, and_assoc]

end Parcel

open Parcel

namespace Roster

variable {r : Roster} {m : HubMessage} {tab : TabId}

/-- The state of the stream is told to all tabs alike. -/
theorem narrowed_state? (m : HubMessage) (scope : Option PuzzleId) :
    (narrowed m scope).bind HubMessage.state? = m.state? := by
  cases m with
  | presence p =>
    cases scope with
    | none => rfl
    | some puzzle => cases hp : p.get? puzzle <;> simp [narrowed, hp, HubMessage.state?]
  | _ => rfl

theorem tab_of_parcel? {seat : Seat} {p : Parcel} (hp : parcel? m tab seat = some p) :
    p.tab = tab := by
  obtain ⟨m', -, rfl⟩ := Option.map_eq_some_iff.1 hp
  rfl

/-- A tab gets what is meant for its seat. -/
theorem parcels_to (r : Roster) (m : HubMessage) (tab : TabId) :
    (r.parcels m).filter (·.tab = tab) = ((r.seats.get? tab).bind (parcel? m tab)).toList := by
  have hkey : (r.parcels m).filter (·.tab = tab) =
      (r.seats.toList.filter (·.1 = tab)).filterMap fun e => parcel? m e.1 e.2 := by
    unfold parcels
    induction r.seats.toList with
    | nil => rfl
    | cons e seats ih =>
      obtain ⟨t, seat⟩ := e
      by_cases ht : t = tab
      · subst ht
        cases hp : parcel? m t seat with
        | none => simp [hp, ih]
        | some p => simp [hp, ih, tab_of_parcel? hp]
      · cases hp : parcel? m t seat with
        | none => simp [hp, ht, ih]
        | some p => simp [hp, ht, ih, tab_of_parcel? hp]
  rw [hkey, KeyedMap.filter_key]
  cases r.seats.get? tab with
  | none => rfl
  | some seat => cases hp : parcel? m tab seat <;> simp [hp]

/-- So a tab that has a seat is told the state that a message tells, once. -/
theorem toldTo_parcels (r : Roster) (m : HubMessage) (tab : TabId) :
    toldTo tab (r.parcels m) = if r.contains tab then m.state?.toList else [] := by
  rw [toldTo, statesOf, parcels_to, contains, KeyedMap.contains]
  cases r.seats.get? tab with
  | none => rfl
  | some seat =>
    rw [← narrowed_state? m seat.scope]
    cases hm : narrowed m seat.scope with
    | none => simp [parcel?, hm, states]
    | some m' => cases hs : m'.state? <;> simp [parcel?, hm, states, hs]

end Roster

/-- A tab attaches by this input. -/
def HubInput.starts (tab : TabId) (i : HubInput) : Bool := i.start?.any (·.1 = tab)

namespace Hub

/-! ## What a hub has to say -/

variable {h : Hub} {i : HubInput} {s : LinkState} {tab : TabId} {seat : Seat}

/-- The message of the stream that an input brings, if the hub listens to it. -/
def passedOn (h : Hub) : HubInput → Option HubMessage
  | .link a (.message m) => if h.link.map (·.attempt) = some a then some m.forTabs else none
  | _ => none

/-- What a hub tells all tabs when it becomes another: the state of the stream, if that
changed for them. -/
def turn (h g : Hub) : List HubMessage :=
  if g.published = h.published then [] else [.status g.published]

/-- All that an input makes a hub tell the tabs that have their seats already. -/
def announced (h : Hub) (i : HubInput) : List HubMessage :=
  (h.passedOn i).toList ++ h.turn (h.step i).1

/-- What an input makes a hub send, with the tabs that it is for. -/
def parcels (h : Hub) (i : HubInput) : List Parcel :=
  match i.start? with
  | some (tab, inbox) => h.welcome.map fun m => ⟨⟨inbox, m⟩, tab⟩
  | none => (h.announced i).flatMap h.roster.parcels

/-- An outcome tells the tabs of the state of the stream, if that changed for them, and of
nothing else. -/
def Turns (h : Hub) (o : Outcome) : Prop := letters o.2 = (h.turn o.1).flatMap h.roster.broadcast

theorem turns_quiet {o : Outcome} (hp : o.1.published = h.published) (ho : letters o.2 = []) :
    h.Turns o := by
  unfold Turns turn
  rw [ho, if_pos hp]
  rfl

theorem publish_turns (h : Hub) : h.Turns h.publish := by
  rw [Turns, letters_publish, turn, (publish_frame h).1]
  split <;> simp

theorem opened_turns (h : Hub) (a : Attempt) : h.Turns (h.opened a) := by
  unfold opened
  split
  · rename_i dialer _
    let h' : Hub := { h with dialer, link := some ⟨a, true⟩ }
    have hpublish := h'.publish_turns
    simpa [Turns, turn, h'] using hpublish
  · exact turns_quiet rfl rfl

theorem ended_turns (h : Hub) (a : Attempt) (f : Failure) : h.Turns (h.ended a f) := by
  unfold ended
  split
  · rename_i dialer next _
    let h' : Hub := { h with dialer, link := none }
    have hpublish := h'.publish_turns
    simpa [Turns, turn, h'] using hpublish
  · exact turns_quiet rfl rfl

theorem fromStream_tells (h : Hub) (m : LiveMessage) :
    (h.fromStream m).1.published = h.published ∧
    letters (h.fromStream m).2 = h.roster.broadcast m.forTabs := by
  cases m <;> exact ⟨rfl, letters_map_deliver _⟩

/-- Where nothing of the stream is passed on, all there is to say is the state. -/
theorem announced_of_turns (hi : h.passedOn i = none) (ht : h.Turns (h.step i)) :
    letters (h.step i).2 = (h.announced i).flatMap h.roster.broadcast := by
  rw [ht, announced, hi]
  rfl

/-- Unless a tab attaches, all that goes out is what all tabs are told. -/
theorem letters_announced (hi : i.start? = none) :
    letters (h.step i).2 = (h.announced i).flatMap h.roster.broadcast := by
  cases i with
  | fromTab m inbox =>
    apply announced_of_turns rfl
    cases m with
    | start tab scope =>
      cases inbox with
      | none => exact turns_quiet rfl rfl
      | some inbox => simp [HubInput.start?] at hi
    | activity tab subject active =>
      simp only [step, fromTab]
      split <;> exact turns_quiet rfl rfl
  | tabGone tab =>
    apply announced_of_turns rfl
    simp only [step, tabGone]
    split <;> exact turns_quiet rfl rfl
  | link a e =>
    by_cases ha : h.link.map (·.attempt) = some a
    · cases e with
      | opened =>
        have hstep : h.step (.link a .opened) = h.opened a := if_pos ha
        exact announced_of_turns rfl (hstep ▸ h.opened_turns a)
      | message m =>
        have hstep : h.step (.link a (.message m)) = h.fromStream m := if_pos ha
        have hpassed : h.passedOn (.link a (.message m)) = some m.forTabs := if_pos ha
        obtain ⟨hp, hm⟩ := h.fromStream_tells m
        rw [announced, hpassed, hstep, hm, turn, if_pos hp]
        simp
      | ended f =>
        have hstep : h.step (.link a (.ended f)) = h.ended a f := if_pos ha
        exact announced_of_turns rfl (hstep ▸ h.ended_turns a f)
    · have hstep : h.step (.link a e) = (h, []) := if_neg ha
      refine announced_of_turns ?_ (by rw [hstep]; exact turns_quiet rfl rfl)
      cases e <;> simp [passedOn, ha]
  | retryDue =>
    apply announced_of_turns rfl
    simp only [step, retryDue]
    split
    · exact turns_quiet (dial_published _) (dial_frame _).2.2
    · exact turns_quiet rfl rfl
  | flushDue =>
    exact announced_of_turns rfl
      (turns_quiet (h.flush_published Activity.news) (h.flush_frame Activity.news).2.2.2.2.1)

/-- The parcels are the letters that go out. -/
theorem letters_parcels (h : Hub) (i : HubInput) :
    (h.parcels i).map (·.toLetter) = letters (h.step i).2 := by
  unfold parcels
  cases hi : i.start? with
  | some p =>
    obtain ⟨tab, inbox⟩ := p
    obtain ⟨scope, rfl⟩ := start_of_start? hi
    change _ = letters (h.attach tab scope inbox).2
    rw [(h.attach_frame tab scope inbox).2.1, List.map_map]
    rfl
  | none =>
    rw [letters_announced hi, List.map_flatMap]
    rfl

/-! ## One input, one tab -/

/-- A message of the stream tells no state of it. -/
theorem passedOn_state? (h : Hub) (i : HubInput) : (h.passedOn i).bind state? = none := by
  unfold passedOn
  split
  · split
    · exact LiveMessage.forTabs_state? _
    · rfl
  · rfl

theorem announced_states (h : Hub) (i : HubInput) :
    states (h.announced i) = states (h.turn (h.step i).1) := by
  have hnone := h.passedOn_state? i
  rw [announced, states_append]
  cases hp : h.passedOn i with
  | none => rfl
  | some m =>
    rw [hp] at hnone
    simp [states, show m.state? = none from hnone]

theorem welcome_states (h : Hub) : states h.welcome = [h.dialer.linkState] := by
  have hsettings : states (h.settings.toList.map HubMessage.settings) = [] := by
    cases h.settings <;> rfl
  have hsync : states (h.recent.events.map HubMessage.sync) = [] := by
    unfold states
    rw [List.filterMap_map, List.filterMap_eq_nil_iff]
    exact fun _ _ => rfl
  have hfirst : welcome h = [.status h.dialer.linkState] ++
      (h.settings.toList.map .settings ++ h.recent.events.map .sync) := rfl
  rw [hfirst, states_append, states_append, hsettings, hsync]
  rfl

theorem toldTo_flatMap (r : Roster) (ms : List HubMessage) (tab : TabId) :
    toldTo tab (ms.flatMap r.parcels) = if r.contains tab then states ms else [] := by
  induction ms with
  | nil => simp [toldTo, statesOf, states]
  | cons m ms ih =>
    rw [List.flatMap_cons, toldTo_append, Roster.toldTo_parcels, ih]
    split
    · cases hs : m.state? <;> simp [states, hs]
    · rfl

theorem toldTo_of_start {inbox : Inbox} {t : TabId} (hi : i.start? = some (t, inbox))
    (tab : TabId) : toldTo tab (h.parcels i) = if t = tab then [h.dialer.linkState] else [] := by
  rw [parcels, hi, toldTo, statesOf, ← welcome_states, List.filter_map]
  by_cases ht : t = tab <;> simp [ht, Function.comp_def, states]

theorem start_published {t : TabId} {inbox : Inbox} (hi : i.start? = some (t, inbox)) :
    (h.step i).1.published = h.published := by
  obtain ⟨scope, rfl⟩ := start_of_start? hi
  rfl

theorem starts_iff : i.starts tab ↔ ∃ inbox, i.start? = some (tab, inbox) := by
  unfold HubInput.starts
  cases i.start? with
  | none => simp
  | some p => simp [Prod.ext_iff]

/-- A tab is told the state when it attaches, and when the state changes while it has its
seat. -/
theorem toldTo_step (h : Hub) (i : HubInput) (tab : TabId) :
    toldTo tab (h.parcels i) =
      if i.starts tab then [h.dialer.linkState]
      else if h.roster.contains tab then states (h.turn (h.step i).1) else [] := by
  cases hi : i.start? with
  | some p =>
    obtain ⟨t, inbox⟩ := p
    rw [toldTo_of_start hi]
    by_cases ht : t = tab <;> simp [HubInput.starts, hi, ht, turn, start_published hi, states]
  | none =>
    rw [parcels, hi]
    dsimp only
    rw [toldTo_flatMap, announced_states]
    simp [HubInput.starts, hi]

theorem seat_of_start {inbox : Inbox} (hi : i.start? = some (tab, inbox)) :
    ∃ scope, (h.step i).1.roster.seats.get? tab = some ⟨scope, inbox⟩ := by
  obtain ⟨scope, rfl⟩ := start_of_start? hi
  refine ⟨scope, ?_⟩
  rw [step_roster]
  exact KeyedMap.get?_insert_self ..

/-- A tab that has its seat after an input by which it did not attach had it before. -/
theorem seat_before (hi : ¬ i.starts tab)
    (hseat : (h.step i).1.roster.seats.get? tab = some seat) :
    h.roster.seats.get? tab = some seat := by
  rw [step_roster] at hseat
  split at hseat
  · rename_i t scope inbox
    have ht : tab ≠ t := fun ht => hi (by simp [HubInput.starts, HubInput.start?, ht])
    exact (KeyedMap.get?_insert_ne _ _ ht).symm.trans hseat
  · rename_i t
    by_cases ht : tab = t
    · subst ht
      simp [Roster.detach] at hseat
    · exact (KeyedMap.get?_erase_ne _ ht).symm.trans hseat
  · exact hseat

/-! ## Many inputs -/

/-- What inputs make a hub send, with the tabs that it is for, in order. -/
def parcelsAll (h : Hub) : List HubInput → List Parcel
  | [] => []
  | i :: rest => h.parcels i ++ (h.step i).1.parcelsAll rest

theorem parcelsAll_append (h : Hub) (is js : List HubInput) :
    h.parcelsAll (is ++ js) = h.parcelsAll is ++ (h.run is).1.parcelsAll js := by
  induction is generalizing h with
  | nil => rfl
  | cons i is ih => simp [parcelsAll, ih]

theorem letters_parcelsAll (h : Hub) (is : List HubInput) :
    (h.parcelsAll is).map (·.toLetter) = letters (h.run is).2 := by
  induction is generalizing h with
  | nil => rfl
  | cons i is ih =>
    rw [parcelsAll, List.map_append, letters_parcels, ih, run_cons, andThen_snd, letters_append]

/-- What a hub sent from its start on. -/
def sent (c : HubConfig) (is : List HubInput) : List Parcel := (start c).1.parcelsAll is

theorem sent_append (c : HubConfig) (is js : List HubInput) :
    sent c (is ++ js) = sent c is ++ (life c is).1.parcelsAll js := parcelsAll_append ..

theorem sent_snoc (c : HubConfig) (is : List HubInput) (i : HubInput) :
    sent c (is ++ [i]) = sent c is ++ (life c is).1.parcels i := by
  rw [sent_append, parcelsAll, parcelsAll, List.append_nil]

/-- All that goes out is sent to some tab. -/
theorem letters_sent (c : HubConfig) (is : List HubInput) :
    (sent c is).map (·.toLetter) = letters (life c is).2 := letters_parcelsAll ..

theorem mail_sent (c : HubConfig) (is : List HubInput) (inbox : Inbox) :
    mail inbox (life c is).2 = ((sent c is).filter (·.inbox = inbox)).map (·.message) := by
  rw [mail, ← letters_sent, List.filter_map, List.map_map]
  rfl

end Hub

end HuntBoard
