-- What the tabs are told of the state of the stream. A tab is told it when it attaches and
-- then when it changes, so it always knows it, and it is told no state twice in a row.
import HuntBoard.Proofs.Fanout
import HuntBoard.Proofs.OneLink
import HuntBoard.Proofs.Parcels
import Mathlib.Data.List.Chain

namespace HuntBoard

open HubEffect HubMessage Parcel

/-! ## States in a row -/

namespace LinkState

variable {l : List LinkState} {s : LinkState}

/-- A list ends with a state if all that is new in it is that state, and it ended so before
in case nothing is. -/
theorem getLast?_append_of_forall {new : List LinkState} (hnew : ∀ x ∈ new, x = s)
    (hold : new = [] → l.getLast? = some s) : (l ++ new).getLast? = some s := by
  rw [List.getLast?_append]
  cases hlast : new.getLast? with
  | none => exact hold (List.getLast?_eq_none_iff.1 hlast)
  | some x => exact congrArg some (hnew x (List.mem_of_getLast? hlast))

/-- Where no state comes twice in a row and nothing else comes after the death of the stream,
all but the last are of a stream that lives. -/
theorem dead_not_mem_dropLast (hchain : l.IsChain (· ≠ ·))
    (hend : l.Pairwise fun s s' => s = .dead → s' = .dead) : .dead ∉ l.dropLast := by
  induction l with
  | nil => exact List.not_mem_nil
  | cons s l ih =>
    cases l with
    | nil => exact List.not_mem_nil
    | cons s' l =>
      rw [List.isChain_cons_cons] at hchain
      rw [List.pairwise_cons] at hend
      rw [List.dropLast_cons_cons, List.mem_cons, not_or]
      refine ⟨fun hs => hchain.1 ?_, ih hchain.2 hend.2⟩
      rw [← hs, hend.1 s' List.mem_cons_self hs.symm]

theorem count_dead_le (hl : .dead ∉ l.dropLast) : l.count .dead ≤ 1 := by
  rcases List.eq_nil_or_concat l with rfl | ⟨first, s, rfl⟩
  · simp
  · rw [List.concat_eq_append, List.dropLast_concat] at hl
    rw [List.concat_eq_append, List.count_append, List.count_eq_zero_of_not_mem hl, Nat.zero_add]
    exact List.count_le_length

theorem getLast?_of_dead_mem (hl : .dead ∉ l.dropLast) (hd : .dead ∈ l) :
    l.getLast? = some .dead := by
  rcases List.eq_nil_or_concat l with rfl | ⟨first, s, rfl⟩
  · simp at hd
  · rw [List.concat_eq_append] at hl hd ⊢
    rw [List.dropLast_concat] at hl
    obtain rfl : .dead = s := by simpa [hl] using hd
    exact List.getLast?_concat

end LinkState

namespace Hub

variable {h : Hub} {i : HubInput} {s : LinkState} {tab : TabId} {seat : Seat}

/-! ## What was told is true -/

/-- The tabs were told the state that the stream is in. -/
def Truthful (h : Hub) : Prop := h.published = h.dialer.linkState

variable {stand : Standing}

theorem Truthful.congr {g : Hub} (ht : h.Truthful) (hp : g.published = h.published)
    (hd : g.dialer = h.dialer) : g.Truthful := by
  rw [Truthful, hp, hd]
  exact ht

/-- A stream that is down is not told to be down again when the next attempt starts. -/
theorem Truthful.dial (ht : h.Truthful) (hd : h.dialer.linkState ≠ .connected) :
    h.dial.1.Truthful := by
  have hbegin : h.dialer.begin.1.linkState = h.dialer.linkState := by
    unfold Dialer.begin
    cases hp : h.dialer.phase <;> simp_all [Dialer.isDead, Dialer.linkState, Phase.linkState]
  have hdialer : h.dial.1.dialer = h.dialer.begin.1 := by
    unfold Hub.dial
    rw [andThen_fst, h.dropLink_frame.1]
    split
    · rename_i heq
      rw [heq]
    · rename_i heq
      rw [heq]
  rw [Truthful, dial_published, hdialer, hbegin]
  exact ht

theorem Truthful.retry (ht : h.Truthful) (hd : h.dialer.linkState ≠ .connected) (next : Retry) :
    (h.retry next).1.Truthful := by
  cases next with
  | now => exact ht.dial hd
  | after delay => exact ht
  | never => exact ht

theorem opened_truthful (ht : h.Truthful) (a : Attempt) : (h.opened a).1.Truthful := by
  unfold opened
  split
  · rename_i dialer _
    let h' : Hub := { h with dialer, link := some ⟨a, true⟩ }
    have hpublish : h'.publish.1.Truthful := by
      rw [Truthful, h'.publish_frame.1]
    exact hpublish.congr (flush_beside _ _).published (flush_beside _ _).dialer
  · exact ht

theorem Stands.not_dead {a : Attempt} (hs : h.Stands (.linked a)) :
    h.dialer.linkState ≠ .dead := by
  obtain ⟨-, ⟨-, hp⟩ | ⟨-, hp⟩⟩ := hs <;> simp [Dialer.linkState, hp, Phase.linkState]

theorem Stands.down (hs : h.Stands .waiting) : h.dialer.linkState = .disconnected :=
  congrArg Phase.linkState hs.2.2

theorem Stands.dead (hs : h.Stands .dead) : h.dialer.linkState = .dead :=
  congrArg Phase.linkState hs.2.2

theorem Stands.ended_truthful {a : Attempt} (hs : h.Stands (.linked a)) (f : Failure) :
    (h.ended a f).1.Truthful := by
  obtain ⟨d, next, hf⟩ := Dialer.failed_of_current hs.attempt? f
  rw [(ended_eq hs.link_attempt hf).1]
  let g : Hub := { h with dialer := d, link := none, published := d.linkState }
  refine Truthful.retry (h := g) rfl ?_ next
  rcases Dialer.failed_cases hf with ⟨hp, -⟩ | ⟨hp, -⟩ | ⟨hp, -⟩ <;>
    simp [g, Dialer.linkState, hp, Phase.linkState]

theorem Stands.retryDue_truthful (hs : h.Stands stand) (ht : h.Truthful) :
    h.retryDue.1.Truthful := by
  unfold Hub.retryDue
  split
  · rename_i hl
    apply Truthful.dial (h := { h with retryPending := false }) ht
    cases stand with
    | linked a => obtain ⟨-, ⟨hlink, -⟩ | ⟨hlink, -⟩⟩ := hs <;> simp [hlink] at hl
    | waiting => simp [hs.down]
    | dead => simp [hs.dead]
  · exact ht

/-- Whatever comes in, the tabs are told before the next input. -/
theorem step_truthful (hs : h.Stands stand) (ht : h.Truthful) (i : HubInput) :
    (h.step i).1.Truthful := by
  cases h.step_cases i with
  | beside hi hb => exact ht.congr hb.published hb.dialer
  | opened a ha hstep =>
    rw [hstep]
    exact opened_truthful ht a
  | ended a f ha hstep =>
    obtain rfl := hs.eq_linked ha
    rw [hstep]
    exact hs.ended_truthful f
  | retryDue => exact hs.retryDue_truthful ht

theorem Stands.of_dead (hs : h.Stands stand) (hd : h.dialer.linkState = .dead) :
    h.Stands .dead := by
  cases stand with
  | linked a => exact absurd hd hs.not_dead
  | waiting => simp [hs.down] at hd
  | dead => exact hs

/-- A stream that is dead stays dead. -/
theorem step_dead (hs : h.Stands stand) (hd : h.dialer.linkState = .dead) (i : HubInput) :
    (h.step i).1.dialer.linkState = .dead :=
  ((hs.of_dead hd).run_dead [i]).1.dead

/-! ## One input -/

/-- Whatever states an input makes a hub tell, to whomever, they are the one that the stream
is in then. -/
theorem state_of_parcel {p : Parcel} (ht : h.Truthful) (hp : p ∈ h.parcels i)
    (hs : p.message.state? = some s) : s = (h.step i).1.published := by
  unfold parcels at hp
  cases hi : i.start? with
  | some x =>
    obtain ⟨t, inbox⟩ := x
    obtain ⟨scope, rfl⟩ := start_of_start? hi
    rw [hi] at hp
    obtain ⟨m, hm, rfl⟩ := List.mem_map.1 hp
    have hstate : s ∈ states h.welcome := List.mem_filterMap.2 ⟨m, hm, hs⟩
    rw [welcome_states, List.mem_singleton] at hstate
    exact hstate.trans ht.symm
  | none =>
    rw [hi] at hp
    obtain ⟨m, hm, hmp⟩ := List.mem_flatMap.1 hp
    obtain ⟨e, -, he⟩ := List.mem_filterMap.1 hmp
    obtain ⟨m', hm', rfl⟩ := Option.map_eq_some_iff.1 he
    have hms : m.state? = some s := by
      rw [← Roster.narrowed_state? m e.2.scope, hm']
      exact hs
    have hstate : s ∈ states (h.announced i) := List.mem_filterMap.2 ⟨m, hm, hms⟩
    rw [announced_states, turn] at hstate
    split at hstate
    · simp [states] at hstate
    · simpa [states, state?] using hstate

/-- A tab that is told nothing has its seat already, and nothing changed. -/
theorem eq_of_untold {which : Parcel → Bool}
    (hseat : (h.step i).1.roster.seats.get? tab = some seat)
    (hwhich : ∀ m, which ⟨⟨seat.inbox, m⟩, tab⟩) (hnone : statesOf which (h.parcels i) = []) :
    ¬ i.starts tab ∧ (h.step i).1.published = h.published := by
  have huntold : ∀ s, (⟨⟨seat.inbox, .status s⟩, tab⟩ : Parcel) ∉ h.parcels i := by
    intro s hp
    have hs : s ∈ statesOf which (h.parcels i) := mem_statesOf.2 ⟨_, hp, hwhich _, rfl⟩
    rw [hnone] at hs
    exact List.not_mem_nil hs
  cases hi : i.start? with
  | some p =>
    obtain ⟨t, inbox⟩ := p
    refine ⟨fun hstarts => ?_, start_published hi⟩
    obtain ⟨inbox', hi'⟩ := starts_iff.1 hstarts
    obtain ⟨scope, hs⟩ := seat_of_start (h := h) hi'
    obtain rfl : ⟨scope, inbox'⟩ = seat := Option.some.inj (hs.symm.trans hseat)
    refine huntold h.dialer.linkState ?_
    rw [parcels, hi']
    exact List.mem_map.2 ⟨_, List.mem_cons_self, rfl⟩
  | none =>
    have hstays : ¬ i.starts tab := by simp [HubInput.starts, hi]
    refine ⟨hstays, Decidable.byContradiction fun hp => huntold (h.step i).1.published ?_⟩
    rw [parcels, hi]
    refine List.mem_flatMap.2 ⟨.status (h.step i).1.published, ?_, ?_⟩
    · simp [announced, turn, hp]
    · refine List.mem_filterMap.2 ⟨(tab, seat), ?_, rfl⟩
      exact (KeyedMap.get?_eq_some_iff ..).1 (seat_before hstays hseat)

/-! ## Many inputs -/

variable {c : HubConfig} {is : List HubInput}

theorem life_truthful (c : HubConfig) (is : List HubInput) : (life c is).1.Truthful := by
  induction is using List.reverseRecOn with
  | nil => rfl
  | append_singleton is i ih =>
    obtain ⟨stand, ha⟩ := accounted c is
    rw [life_snoc, andThen_fst]
    exact step_truthful ha.stands ih i

/-- Whatever is told of the state by an input is true after it. -/
theorem state_told {which : Parcel → Bool} (hs : s ∈ statesOf which ((life c is).1.parcels i)) :
    s = (life c (is ++ [i])).1.published := by
  obtain ⟨p, hp, -, hstate⟩ := mem_statesOf.1 hs
  rw [life_snoc, andThen_fst]
  exact state_of_parcel (life_truthful c is) hp hstate

/-- Of parcels that include all those to a tab, the last state is the one that the stream is
in, as long as the tab has its seat. -/
theorem last_state_sent (which : Parcel → Bool)
    (hseat : (life c is).1.roster.seats.get? tab = some seat)
    (hwhich : ∀ m, which ⟨⟨seat.inbox, m⟩, tab⟩) :
    (statesOf which (sent c is)).getLast? = some (life c is).1.published := by
  induction is using List.reverseRecOn with
  | nil => simp [life, start_eq, ofConfig] at hseat
  | append_singleton is i ih =>
    rw [sent_snoc, statesOf_append]
    refine LinkState.getLast?_append_of_forall (fun _ => state_told) fun hnone => ?_
    rw [life_snoc, andThen_fst] at hseat ⊢
    obtain ⟨hstays, hsame⟩ := eq_of_untold hseat hwhich hnone
    rw [hsame]
    exact ih (seat_before hstays hseat)

/-! ## The end of the stream -/

theorem dead_stays (c : HubConfig) (is : List HubInput) (i : HubInput)
    (hd : (life c is).1.published = .dead) : (life c (is ++ [i])).1.published = .dead := by
  obtain ⟨stand, ha⟩ := accounted c is
  rw [life_truthful] at hd ⊢
  rw [life_snoc, andThen_fst]
  exact step_dead ha.stands hd i

theorem dead_of_told (which : Parcel → Bool) (hd : .dead ∈ statesOf which (sent c is)) :
    (life c is).1.published = .dead := by
  induction is using List.reverseRecOn with
  | nil => exact absurd hd List.not_mem_nil
  | append_singleton is i ih =>
    rw [sent_snoc, statesOf_append, List.mem_append] at hd
    rcases hd with hd | hd
    · exact dead_stays c is i (ih hd)
    · exact (state_told hd).symm

/-- A hub that told anyone that the stream is dead tells nobody anything else of it. -/
theorem dead_to_the_end (which : Parcel → Bool) (c : HubConfig) (is : List HubInput) :
    (statesOf which (sent c is)).Pairwise fun s s' => s = .dead → s' = .dead := by
  induction is using List.reverseRecOn with
  | nil => exact .nil
  | append_singleton is i ih =>
    rw [sent_snoc, statesOf_append, List.pairwise_append]
    refine ⟨ih, List.pairwise_of_forall_mem_list fun s hs s' hs' hd => ?_, fun s hs s' hs' hd => ?_⟩
    · rw [state_told hs', ← state_told hs, hd]
    · rw [state_told hs']
      exact dead_stays c is i (dead_of_told which (hd ▸ hs))

/-! ## A tab that attaches once -/

/-- Before it attaches, a tab is told nothing. -/
theorem untold (c : HubConfig) (his : is.countP (·.starts tab) = 0) :
    toldTo tab (sent c is) = [] ∧ (life c is).1.roster.seats.get? tab = none := by
  induction is using List.reverseRecOn with
  | nil => exact ⟨rfl, rfl⟩
  | append_singleton is i ih =>
    rw [List.countP_append, List.countP_singleton, Nat.add_eq_zero_iff] at his
    obtain ⟨hnone, hseat⟩ := ih his.1
    have hstays : ¬ i.starts tab := by simpa using his.2
    have habsent : ¬ (life c is).1.roster.contains tab := by
      simp [Roster.contains, KeyedMap.contains, hseat]
    constructor
    · rw [sent_snoc, toldTo_append, hnone, toldTo_step, if_neg hstays, if_neg habsent]
      rfl
    · rw [life_snoc, andThen_fst]
      by_contra hsome
      obtain ⟨seat, hs⟩ := Option.ne_none_iff_exists'.1 hsome
      rw [seat_before hstays hs] at hseat
      exact Option.some_ne_none _ hseat

/-- A tab that attaches once at most is told no state twice in a row. -/
theorem chain_told (c : HubConfig) (his : is.countP (·.starts tab) ≤ 1) :
    (toldTo tab (sent c is)).IsChain (· ≠ ·) := by
  induction is using List.reverseRecOn with
  | nil => exact .nil
  | append_singleton is i ih =>
    rw [List.countP_append, List.countP_singleton] at his
    rw [sent_snoc, toldTo_append, toldTo_step]
    by_cases hstarts : i.starts tab
    -- All that it is told is what it is told now.
    · rw [if_pos hstarts] at his
      rw [(untold c (by omega)).1, if_pos hstarts]
      exact .singleton _
    · rw [if_neg hstarts] at his ⊢
      have hquiet : (toldTo tab (sent c is) ++ []).IsChain (· ≠ ·) := by
        rw [List.append_nil]
        exact ih his
      split
      · rename_i hseated
        unfold turn
        split
        · exact hquiet
        · rename_i hnew
          obtain ⟨seat, hseat⟩ := Option.isSome_iff_exists.1 hseated
          have hlast : (toldTo tab (sent c is)).getLast? = _ :=
            last_state_sent (·.tab = tab) hseat fun _ => decide_eq_true rfl
          refine List.isChain_append.2 ⟨ih his, .singleton _, fun x hx y hy => ?_⟩
          obtain rfl := Option.some.inj (hlast.symm.trans hx)
          obtain rfl := Option.some.inj hy
          exact Ne.symm hnew
      · exact hquiet

end Hub

/-! ## The law -/

namespace Mailroom

open Occasion

/-- A hub tells its tabs the truth about the stream, and the last that was put into the inbox
of an attached tab is that truth, as long as the inbox is open. Of all that the hub sends, a
tab that attaches once is told no state twice in a row; it is told once at most that the
stream is dead, and nothing after that; and it is told so if it has its seat at some time
when the stream is dead. -/
theorem every_tab_knows_the_state (c : HubConfig) (os : List Occasion) :
    let r := (ofConfig c).run os
    let is := inputs os
    r.hub.published = r.hub.dialer.linkState ∧
    (∀ tab seat, r.hub.roster.seats.get? tab = some seat → .closes seat.inbox ∉ os →
      (states (r.heard seat.inbox)).getLast? = some r.hub.dialer.linkState) ∧
    (Hub.sent c is).map (·.toLetter) = HubEffect.letters (Hub.life c is).2 ∧
    ∀ tab, is.countP (·.starts tab) ≤ 1 →
      let told := toldTo tab (Hub.sent c is)
      told.IsChain (· ≠ ·) ∧ told.count .dead ≤ 1 ∧
      (.dead ∈ told → told.getLast? = some .dead) ∧
      ∀ past, past <+: is → (Hub.life c past).1.roster.contains tab →
        (Hub.life c past).1.dialer.linkState = .dead → told.count .dead = 1 := by
  intro r is
  have hhub : r.hub = (Hub.life c is).1 := run_hub ..
  have ht : (Hub.life c is).1.published = _ := Hub.life_truthful c is
  rw [hhub, ← ht]
  refine ⟨rfl, fun tab seat hseat hopen => ?_, Hub.letters_sent c is, fun tab hstarts => ?_⟩
  · rw [ofConfig_heard c hopen, Hub.mail_sent]
    exact Hub.last_state_sent (·.inbox = seat.inbox) hseat fun _ => decide_eq_true rfl
  · intro told
    have hchain : told.IsChain (· ≠ ·) := Hub.chain_told c hstarts
    have hlife := LinkState.dead_not_mem_dropLast hchain (Hub.dead_to_the_end _ c is)
    refine ⟨hchain, LinkState.count_dead_le hlife, LinkState.getLast?_of_dead_mem hlife,
      fun past hp hseated hdead => ?_⟩
    obtain ⟨rest, hrest⟩ := hp
    obtain ⟨seat, hseat⟩ := Option.isSome_iff_exists.1 hseated
    have hlast := Hub.last_state_sent (·.tab = tab) hseat fun _ => decide_eq_true rfl
    rw [Hub.life_truthful c past, hdead] at hlast
    have hmem : .dead ∈ told := by
      have hpast : .dead ∈ toldTo tab (Hub.sent c past) := List.mem_of_getLast? hlast
      have happend : told = _ := congrArg (toldTo tab) (hrest ▸ Hub.sent_append c past rest)
      rw [happend, toldTo_append]
      exact List.mem_append_left _ hpast
    exact Nat.le_antisymm (LinkState.count_dead_le hlife) (List.count_pos_iff.2 hmem)

/-- A tab sees the stream come and go and die. Another one looks in for a while and closes its
inbox, and a third comes when all is over. -/
def lastDays : List Occasion :=
  [.takes (.fromTab (.start ⟨1⟩ none) (some 0)), .takes (.link 1 .opened),
    .takes (.link 1 (.ended (.error "reset"))), .takes (.fromTab (.start ⟨2⟩ none) (some 1)),
    .closes 1, .takes .retryDue, .takes (.link 2 (.ended .timedOut)), .takes (.link 3 .opened),
    .takes (.link 3 (.ended (.closed replayGoneCode ""))), .takes (.tabGone ⟨2⟩),
    .takes (.fromTab (.start ⟨3⟩ none) (some 2))]

/-- The first tab is told each time, but not that the second attempt failed, and the third is
told how things stand. -/
theorem the_first_and_the_third_know_the_end :
    let r := (ofConfig {}).run lastDays
    let sent := Hub.sent {} (inputs lastDays)
    r.hub.published = r.hub.dialer.linkState ∧ r.hub.dialer.linkState = .dead ∧
    (states (r.heard 2)).getLast? = some .dead ∧
    (toldTo ⟨1⟩ sent).count .dead = 1 ∧ (toldTo ⟨1⟩ sent).getLast? = some .dead ∧
    toldTo ⟨1⟩ sent = [.disconnected, .connected, .disconnected, .connected, .dead] := by
  intro r sent
  obtain ⟨htruth, hlast, -, honce⟩ := every_tab_knows_the_state {} lastDays
  have hdead : r.hub.dialer.linkState = .dead := by decide
  obtain ⟨-, -, hend, hone⟩ := honce ⟨1⟩ (by decide)
  have hcount : (toldTo ⟨1⟩ sent).count .dead = 1 :=
    hone _ List.prefix_rfl (by decide) (by decide)
  have hmem : .dead ∈ toldTo ⟨1⟩ sent := List.count_pos_iff.1 (by rw [hcount]; exact Nat.one_pos)
  have hthird := hlast ⟨3⟩ ⟨none, 2⟩ (by decide) (by decide)
  exact ⟨htruth, hdead, hthird.trans (congrArg some hdead), hcount, hend hmem, by decide⟩

end Mailroom

end HuntBoard
