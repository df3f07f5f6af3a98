-- One hub puts letters into many inboxes. Some of their readers go away, and letters for
-- them are lost. An inbox that is still read gets every event all the same: the newest
-- there are when its tab attaches, then each as it comes, and nothing when the tab is gone.
import HuntBoard.Proofs.Inbox
import Mathlib.Data.List.DropRight

namespace HuntBoard

open HubEffect

/-! ## Who has an inbox -/

namespace Hub

variable {h : Hub} {is : List HubInput} {inbox : Inbox} {tab : TabId} {seat : Seat}

theorem tabGone_effects (h : Hub) (tab : TabId) : (h.tabGone tab).2 = [] := by
  unfold tabGone
  split <;> rfl

/-- An inbox is that of a tab in its seat, or nobody has it any more. -/
def LeftTo (h : Hub) (inbox : Inbox) (tab : TabId) (seat : Seat) : Prop :=
  h.roster.seatsAt inbox = .single tab seat ∨ h.roster.seatsAt inbox = .empty

theorem LeftTo.step {i : HubInput} (hi : Foreign tab inbox i) (hl : h.LeftTo inbox tab seat) :
    (h.step i).1.LeftTo inbox tab seat := by
  rcases hl with hseat | hnone
  · have hs := (step_seated hi hseat).2
    by_cases hgone : i = .tabGone tab
    · exact .inr (hs.trans (if_pos hgone))
    · exact .inl (hs.trans (if_neg hgone))
  · exact .inr (step_absent hi hnone).2

/-- As long as no other tab attaches with the inbox, it is left to the one that has it. -/
theorem LeftTo.run (his : ∀ i ∈ is, Foreign tab inbox i) (hl : h.LeftTo inbox tab seat) :
    (h.run is).1.LeftTo inbox tab seat := by
  induction is generalizing h with
  | nil => exact hl
  | cons i is ih =>
    rw [List.forall_mem_cons] at his
    exact ih his.2 (hl.step his.1)

theorem LeftTo.mail_of_gone (his : ∀ i ∈ is, Foreign tab inbox i)
    (hl : h.LeftTo inbox tab seat) : mail inbox (h.run (.tabGone tab :: is)).2 = [] := by
  have hforeign : Foreign tab inbox (.tabGone tab) := by simp [Foreign, HubInput.start?]
  have hgone : (h.step (.tabGone tab)).1.roster.seatsAt inbox = .empty := by
    rcases hl with hseat | hnone
    · exact (step_seated hforeign hseat).2.trans (if_pos rfl)
    · exact (step_absent hforeign hnone).2
  have hnow : (h.step (.tabGone tab)).2 = [] := h.tabGone_effects tab
  rw [run_cons, andThen_snd, mail_append, hnow, (run_absent his hgone).1]
  rfl

end Hub

/-! ## Inboxes that are closed -/

inductive Occasion where
  | takes (i : HubInput)
  /-- Nobody reads an inbox any more. -/
  | closes (inbox : Inbox)
  deriving DecidableEq

/-- The inputs that the hub takes. -/
def Occasion.inputs (os : List Occasion) : List HubInput :=
  os.filterMap fun
    | .takes i => some i
    | .closes _ => none

theorem Occasion.inputs_append (os more : List Occasion) :
    inputs (os ++ more) = inputs os ++ inputs more := List.filterMap_append

/-- A hub, and the inboxes it puts letters into. -/
structure Mailroom where
  hub : Hub
  closed : List Inbox := []
  /-- All that was put into the inboxes, in order. -/
  letters : List Letter := []

namespace Mailroom

open Occasion

/-- A hub starts among inboxes that are all open. -/
def ofConfig (c : HubConfig) : Mailroom := { hub := (Hub.start c).1 }

/-- The hub goes by its inputs only: it does not hear of an inbox that is closed, and goes
on to write to it, but what it writes is lost. -/
def step (r : Mailroom) : Occasion → Mailroom
  | .takes i =>
    let o := r.hub.step i
    { r with
      hub := o.1
      letters := r.letters ++ (HubEffect.letters o.2).filter (·.inbox ∉ r.closed) }
  | .closes inbox => { r with closed := inbox :: r.closed }

def run (r : Mailroom) (os : List Occasion) : Mailroom := os.foldl step r

/-- The messages that were put into an inbox. -/
def heard (r : Mailroom) (inbox : Inbox) : List HubMessage :=
  (r.letters.filter (·.inbox = inbox)).map (·.message)

variable {r : Mailroom} {os : List Occasion} {inbox : Inbox} {tab : TabId}

theorem run_append (r : Mailroom) (os more : List Occasion) :
    r.run (os ++ more) = (r.run os).run more := List.foldl_append

theorem run_hub (r : Mailroom) (os : List Occasion) :
    (r.run os).hub = (r.hub.run (inputs os)).1 := by
  induction os generalizing r with
  | nil => rfl
  | cons o os ih =>
    cases o with
    | takes i => exact ih (r.step (.takes i))
    | closes b => exact ih (r.step (.closes b))

/-- An inbox that is open gets all that is meant for it, whichever others are closed. -/
theorem step_heard (hopen : inbox ∉ r.closed) (i : HubInput) :
    (r.step (.takes i)).heard inbox = r.heard inbox ++ mail inbox (r.hub.step i).2 := by
  have hkept : ∀ ls : List Letter,
      (ls.filter (·.inbox ∉ r.closed)).filter (·.inbox = inbox) =
        ls.filter (·.inbox = inbox) := by
    intro ls
    rw [List.filter_filter]
    apply List.filter_congr
    intro l _
    by_cases hl : l.inbox = inbox
    · simp [hl, hopen]
    · simp [hl]
  unfold heard step mail
  rw [List.filter_append, List.map_append, hkept]

theorem step_open {o : Occasion} (hopen : inbox ∉ r.closed) (ho : .closes inbox ≠ o) :
    inbox ∉ (r.step o).closed := by
  cases o with
  | takes i => exact hopen
  | closes b =>
    intro hmem
    rcases List.mem_cons.1 hmem with hb | hclosed
    · exact ho (congrArg closes hb)
    · exact hopen hclosed

theorem run_open (hopen : inbox ∉ r.closed) (hos : .closes inbox ∉ os) :
    inbox ∉ (r.run os).closed := by
  induction os generalizing r with
  | nil => exact hopen
  | cons o os ih =>
    rw [List.mem_cons, not_or] at hos
    exact ih (step_open hopen hos.1) hos.2

theorem run_heard (hopen : inbox ∉ r.closed) (hos : .closes inbox ∉ os) :
    (r.run os).heard inbox = r.heard inbox ++ mail inbox (r.hub.run (inputs os)).2 := by
  induction os generalizing r with
  | nil => exact (List.append_nil _).symm
  | cons o os ih =>
    rw [List.mem_cons, not_or] at hos
    have hheard := ih (step_open hopen hos.1) hos.2
    cases o with
    | takes i =>
      rw [step_heard hopen, List.append_assoc, ← mail_append] at hheard
      exact hheard
    | closes b => exact hheard

/-- So what an open inbox hears from the start on is just what the hub has for it. -/
theorem ofConfig_heard (c : HubConfig) (hos : .closes inbox ∉ os) :
    ((ofConfig c).run os).heard inbox = mail inbox (Hub.life c (inputs os)).2 :=
  run_heard List.not_mem_nil hos

/-- When its tab is gone, an inbox stays as it is, though it may be open for ever. -/
theorem heard_of_gone {seat : Seat} (hopen : inbox ∉ r.closed) (hos : .closes inbox ∉ os)
    (hforeign : ∀ i ∈ inputs os, Hub.Foreign tab inbox i) (hl : r.hub.LeftTo inbox tab seat) :
    (r.run (.takes (.tabGone tab) :: os)).heard inbox = r.heard inbox := by
  have hos' : .closes inbox ∉ .takes (.tabGone tab) :: os := by simp [hos]
  have hmail : mail inbox (r.hub.run (inputs (.takes (.tabGone tab) :: os))).2 = [] :=
    hl.mail_of_gone hforeign
  rw [run_heard hopen hos', hmail, List.append_nil]

/-! ## The law -/

variable {c : HubConfig} {scope : Option PuzzleId} {before after : List Occasion}

/-- The hub has just seated the tab. -/
theorem hub_attached (c : HubConfig) (scope : Option PuzzleId) (before : List Occasion) :
    ((ofConfig c).run (before ++ [.takes (.fromTab (.start tab scope) (some inbox))])).hub =
      ((Hub.life c (inputs before)).1.attach tab scope inbox).1 := by
  rw [run_append]
  change (((ofConfig c).run before).hub.attach tab scope inbox).1 = _
  rw [run_hub]
  rfl

/-- A tab attaches once, and reads its inbox all the time, while other tabs come, close
theirs and are gone. The events in its inbox are the last that the hub took before, as many
as its buffer holds, then every one that the hub takes until the tab is gone, all in the
order in which the hub took them. When the tab is gone, nothing more comes at all. -/
theorem every_event_comes_once_and_in_order
    (hbefore : ∀ i ∈ inputs before, Hub.Foreign tab inbox i)
    (hafter : ∀ i ∈ inputs after, Hub.Foreign tab inbox i)
    (hopen : .closes inbox ∉ before ++ after) :
    let start : HubInput := .fromTab (.start tab scope) (some inbox)
    let attached := (ofConfig c).run (before ++ [.takes start])
    let old := Hub.pushed c (inputs before)
    let new := attached.hub.takenAll (Hub.untilGone tab (inputs after))
    ((attached.run after).heard inbox).filterMap HubMessage.event? =
      old.rtake (min (max c.recentCapacity 1) old.length) ++ new ∧
    ∀ kept late, after = kept ++ .takes (.tabGone tab) :: late →
      (attached.run after).heard inbox = (attached.run kept).heard inbox := by
  intro start attached old new
  have hhub : attached.hub = ((Hub.life c (inputs before)).1.attach tab scope inbox).1 :=
    hub_attached c scope before
  constructor
  · have hall : .closes inbox ∉ before ++ [.takes start] ++ after := by simpa using hopen
    have hinputs : inputs (before ++ [.takes start] ++ after) =
        inputs before ++ start :: inputs after := by
      rw [List.append_assoc, inputs_append, inputs_append]
      rfl
    have hlast : old.rtake (min (max c.recentCapacity 1) old.length) =
        old.drop (old.length - max c.recentCapacity 1) := by
      unfold List.rtake
      congr 1
      omega
    rw [← run_append, ofConfig_heard c hall, hinputs,
      Hub.events_in_inbox c scope hbefore hafter, hlast, ← hhub]
  · rintro kept late rfl
    rw [inputs_append, List.forall_mem_append] at hafter
    obtain ⟨hkept, hgone⟩ := hafter
    have hlate : ∀ i ∈ inputs late, Hub.Foreign tab inbox i := (List.forall_mem_cons.1 hgone).2
    simp only [List.mem_append, List.mem_cons, not_or] at hopen
    obtain ⟨hbefore_open, hkept_open, -, hlate_open⟩ := hopen
    have hstart_open : .closes inbox ∉ before ++ [.takes start] := by simp [hbefore_open]
    have hseat : attached.hub.roster.seatsAt inbox = .single tab ⟨scope, inbox⟩ := by
      rw [hhub]
      exact Roster.seatsAt_attach_self scope (Hub.life_absent c hbefore).2
    have hleft : attached.hub.LeftTo inbox tab ⟨scope, inbox⟩ := .inl hseat
    have hleft_then := hleft.run hkept
    rw [← run_hub] at hleft_then
    rw [run_append]
    exact heard_of_gone (run_open (run_open List.not_mem_nil hstart_open) hkept_open) hlate_open
      hlate hleft_then

/-- An event that comes on the first connection. -/
def comes (id : ChangeId) : Occasion :=
  .takes (.link 1 (.message (.sync ⟨id, .deletePuzzle ⟨1⟩⟩)))

/-- Before a tab attaches, another one does and closes its inbox. -/
def early : List Occasion :=
  [.takes (.link 1 .opened), comes ⟨4⟩, .takes (.fromTab (.start ⟨2⟩ none) (some 1)), comes ⟨5⟩,
    .closes 1, comes ⟨6⟩]

/-- The other one is gone first. -/
def late : List Occasion :=
  [comes ⟨7⟩, .takes (.tabGone ⟨2⟩), comes ⟨8⟩, .takes (.tabGone ⟨1⟩), comes ⟨9⟩]

/-- The buffer keeps one event. What is lost to one inbox comes into the other. -/
theorem one_leaves_and_one_stays :
    let attached := (ofConfig { recentCapacity := 1 }).run
      (early ++ [.takes (.fromTab (.start ⟨1⟩ none) (some 0))])
    let ids (inbox : Inbox) : List ChangeId :=
      (((attached.run late).heard inbox).filterMap HubMessage.event?).map (·.changeId)
    ids 0 = [⟨6⟩, ⟨7⟩, ⟨8⟩] ∧ ids 1 = [⟨4⟩, ⟨5⟩] ∧
      (attached.run late).heard 0 = (attached.run (late.take 3)).heard 0 := by
  intro attached ids
  have hearly : ∀ i ∈ inputs early, Hub.Foreign ⟨1⟩ 0 i := by
    simp [inputs, early, comes, Hub.Foreign, HubInput.start?]
  have hlate : ∀ i ∈ inputs late, Hub.Foreign ⟨1⟩ 0 i := by
    simp [inputs, late, comes, Hub.Foreign, HubInput.start?]
  obtain ⟨hevents, hgone⟩ := @every_event_comes_once_and_in_order 0 ⟨1⟩ { recentCapacity := 1 }
    none early late hearly hlate (by decide)
  refine ⟨?_, by decide, hgone (late.take 3) (late.drop 4) rfl⟩
  have hids : ids 0 = _ := congrArg (List.map (·.changeId)) hevents
  exact hids.trans (by decide)

end Mailroom

end HuntBoard
