-- Catching up: a tab holds a snapshot, attaches to a hub in the middle of the
-- stream, and hears what the buffer holds and what comes from then on. Either
-- that closes on the snapshot without a gap, or the tab asks to start over.
import HuntBoard.Proofs.History
import HuntBoard.Proofs.Inbox
import HuntBoard.Proofs.TabSteps

namespace HuntBoard

open HubEffect TabEffect

/-! ## Events among inputs -/

namespace TabInput

/-- The event that an input brings. -/
def event? (i : TabInput) : Option SyncEvent := i.heard?.bind HubMessage.event?

/-- The events that inputs bring, in order. -/
def events (is : List TabInput) : List SyncEvent := is.filterMap event?

variable {i : TabInput} {is : List TabInput}

theorem eq_of_event? {e : SyncEvent} (hi : i.event? = some e) : i = .message (.sync e) := by
  cases i with
  | message m =>
    cases m with
    | sync e' => exact congrArg (fun e => message (.sync e)) (Option.some.inj hi)
    | _ => simp [event?, heard?, HubMessage.event?] at hi
  | _ => simp [event?, heard?] at hi

theorem events_cons_of_none (hi : i.event? = none) : events (i :: is) = events is :=
  List.filterMap_cons_none hi

theorem events_cons_sync (e : SyncEvent) : events (.message (.sync e) :: is) = e :: events is := rfl

theorem events_eq_heard (is : List TabInput) :
    events is = (is.filterMap heard?).filterMap HubMessage.event? := by
  rw [List.filterMap_filterMap]
  rfl

theorem heard_map_message (ms : List HubMessage) : (ms.map message).filterMap heard? = ms := by
  rw [List.filterMap_map]
  exact List.filterMap_some

/-- The inputs before the first that brings an event. -/
def untilEvent (is : List TabInput) : List TabInput := is.takeWhile (·.event? = none)

theorem events_untilEvent (is : List TabInput) : events (untilEvent is) = [] := by
  rw [events, List.filterMap_eq_nil_iff]
  intro i hi
  have hall : (untilEvent is).all (·.event? = none) = true := List.all_takeWhile
  simpa using List.all_eq_true.1 hall i hi

/-- The first event parts the inputs. -/
theorem split_at_event {lo : SyncEvent} (hlo : (events is).head? = some lo) :
    ∃ rest, is = untilEvent is ++ .message (.sync lo) :: rest := by
  induction is with
  | nil => simp [events] at hlo
  | cons i is ih =>
    cases hi : i.event? with
    | none =>
      rw [events_cons_of_none hi] at hlo
      obtain ⟨rest, hrest⟩ := ih hlo
      refine ⟨rest, ?_⟩
      rw [untilEvent, List.takeWhile_cons_of_pos (by simpa using hi)]
      exact congrArg (i :: ·) hrest
    | some e =>
      obtain rfl := eq_of_event? hi
      obtain rfl : e = lo := by simpa [events_cons_sync] using hlo
      exact ⟨is, by simp [untilEvent, hi]⟩

end TabInput

open TabInput

/-! ## Replicas offered a stretch of events -/

namespace Replica

variable {n : Nat} {is : List TabInput} {es : List SyncEvent} {r : Replica}

/-- Nothing but events moves a replica; the settings are beside it. -/
theorem heed_of_no_event {i : TabInput} (hi : i.event? = none) (r : Replica) :
    r.heed i = r.setSettings (r.heed i).settings := by
  cases i with
  | message m =>
    cases m with
    | sync e => simp [event?, heard?, HubMessage.event?] at hi
    | _ => rfl
  | _ => rfl

theorem heedAll_eq_offered (r : Replica) (is : List TabInput) :
    r.heedAll is = (r.offered (events is)).setSettings (r.heedAll is).settings := by
  induction is generalizing r with
  | nil => rfl
  | cons i is ih =>
    rw [heedAll_cons, ih]
    cases hi : i.event? with
    | none =>
      rw [events_cons_of_none hi, heed_of_no_event hi, offered_setSettings]
      rfl
    | some e =>
      obtain rfl := eq_of_event? hi
      rfl

/-- Without events there is no drift, and so the reasons to start over are those
that the inputs have of their own. -/
theorem causes_of_no_events (r : Replica) (hnone : events is = []) :
    r.causes is = is.filterMap ownCause? := by
  induction is generalizing r with
  | nil => rfl
  | cons i is ih =>
    have hi : i.event? = none := List.filterMap_eq_nil_iff.1 hnone i List.mem_cons_self
    have hc : r.cause? i = i.ownCause? := by
      unfold cause?
      split
      · simp [event?, heard?, HubMessage.event?] at hi
      · rfl
    rw [events_cons_of_none hi] at hnone
    rw [causes, hc, ih _ hnone]
    cases ho : i.ownCause? <;> simp [ho]

/-- Only an event that skips others makes a drift. -/
theorem drift_of_cause {i : TabInput} {a b : ChangeId} (h : r.cause? i = some (.drift a b)) :
    ∃ e, i.event? = some e ∧ r.watermark.number + 1 < e.changeId.number := by
  unfold cause? at h
  split at h
  · rename_i e
    refine ⟨e, rfl, ?_⟩
    rcases r.apply_cases e with ⟨_, he⟩ | ⟨hlt, _⟩ | ⟨_, _, he⟩
    · simp [he] at h
    · exact hlt
    · simp [he] at h
  · unfold ownCause? at h
    split at h <;> simp at h

/-- Events that close on the watermark take it to the last of them. -/
theorem watermark_offered (hes : ConsecutiveFrom n es) (hn : n ≤ r.watermark.number) :
    (r.offered es).watermark.number = max r.watermark.number (n + es.length) := by
  induction es generalizing n r with
  | nil =>
    rw [offered_nil, List.length_nil]
    omega
  | cons e es ih =>
    obtain ⟨he, hes⟩ := hes
    rw [offered_cons, List.length_cons]
    rcases Nat.lt_or_ge n r.watermark.number with hlt | hge
    · rw [apply_stale (by omega), ih hes hlt]
      omega
    · rw [apply_next (by omega), ih hes (Nat.le_of_eq he.symm)]
      dsimp only
      omega

/-- Events beyond the next change move nothing. -/
theorem offered_across_gap (hg : r.gapAllowed = false) (hes : ConsecutiveFrom n es)
    (hn : r.watermark.number < n) : r.offered es = r := by
  induction es generalizing n with
  | nil => rfl
  | cons e es ih =>
    obtain ⟨he, hes⟩ := hes
    rw [offered_cons, apply_drift hg (by omega)]
    exact ih hes (by omega)

/-- While events close on the watermark, nothing drifts. -/
theorem no_drift (his : ConsecutiveFrom n (events is)) (hn : n ≤ r.watermark.number)
    (a b : ChangeId) : .drift a b ∉ r.causes is := by
  induction is generalizing n r with
  | nil => exact List.not_mem_nil
  | cons i is ih =>
    rw [causes, List.mem_append, Option.mem_toList]
    rintro (hc | hc)
    · obtain ⟨e, he, hlt⟩ := drift_of_cause hc
      obtain rfl := eq_of_event? he
      have := his.1
      omega
    · cases hi : i.event? with
      | none =>
        rw [events_cons_of_none hi] at his
        refine ih his ?_ hc
        rw [heed_of_no_event hi]
        exact hn
      | some e =>
        obtain rfl := eq_of_event? hi
        refine ih his.2 ?_ hc
        -- Stale or next, the event leaves the watermark where the one behind it closes on.
        have hone : ConsecutiveFrom n [e] := ⟨his.1, trivial⟩
        have hw : (r.heed (.message (.sync e))).watermark.number = _ := watermark_offered hone hn
        rw [hw, List.length_singleton]
        omega

end Replica

/-! ## The law -/

namespace Tab

variable {t : Tab} {is : List TabInput} {lo : SyncEvent}

/-- A gap before the first event: a tab asks to start over because of it, or has
asked for another reason before. -/
theorem reloads_across_gap (ht : t.reloaded = false) (hg : t.replica.gapAllowed = false)
    (hlo : (events is).head? = some lo) (hw : t.replica.watermark.number + 1 < lo.changeId.number) :
    reloads (t.run is).2 =
      [((untilEvent is).findSome? ownCause?).getD
        (.drift t.replica.watermark.next lo.changeId)] := by
  obtain ⟨rest, hsplit⟩ := split_at_event hlo
  have hquiet := events_untilEvent is
  generalize untilEvent is = quiet at *
  subst hsplit
  -- Up to the event the watermark stays, so it is the one that the gap opens behind.
  have hr := t.replica.heedAll_eq_offered quiet
  rw [hquiet, Replica.offered_nil] at hr
  have hc : (t.replica.heedAll quiet).cause? (.message (.sync lo)) =
      some (.drift t.replica.watermark.next lo.changeId) := by
    rw [hr]
    unfold Replica.cause?
    dsimp only
    rw [Replica.apply_setSettings, Replica.apply_drift hg hw]
  rw [run_reloads, ht, Replica.causes_append, Replica.causes, hc,
    Replica.causes_of_no_events _ hquiet, ← List.head?_filterMap]
  cases quiet.filterMap ownCause? <;> simp

/-- Two things happen at once: a hub takes a stretch of a history, and a tab that
has a snapshot of the history attaches to it somewhere in between. When the tab
has heard all that came into its inbox, whatever else it did meanwhile, it shows
the server's state at the last event that it heard or at its snapshot, whichever
is later, if the first event closes on the snapshot. If it does not, the tab still
shows its snapshot and has asked to start over, once: because of the gap, if it
was not told before the first event that the stream is dead or the session over. -/
theorem a_late_tab_catches_up_or_asks_to_start_over {c : HubConfig} {h : History} {s : Snapshot}
    {tab : TabId} {inbox : Inbox} {said : List HubInput} (hs : h.Holds s)
    (hstart : Hub.AttachesOnce tab inbox said) (hstream : Hub.pushed c said <:+: h.events)
    (hheard : is.filterMap heard? = mail inbox (Hub.life c said).2) :
    let o := (ofSnapshot s).run is
    let w := s.changeId.number
    (∀ lo m, (events is).head? = some lo → (events is).getLast? = some m →
      lo.changeId.number ≤ w + 1 →
        (∀ expected got, .drift expected got ∉ reloads o.2) ∧
        o.1.replica.watermark.number = max w m.changeId.number ∧
        o.1.replica.entities = h.stateAt (max w m.changeId.number)) ∧
    (∀ lo, (events is).head? = some lo → w + 1 < lo.changeId.number →
        reloads o.2 = [((untilEvent is).findSome? ownCause?).getD
          (.drift s.changeId.next lo.changeId)] ∧
        o.1.replica.watermark = s.changeId ∧ o.1.replica.entities = h.stateAt w) ∧
    (events is = [] →
        (∀ expected got, .drift expected got ∉ reloads o.2) ∧
        o.1.replica.watermark = s.changeId ∧ o.1.replica.entities = h.stateAt w) := by
  have hstretch : events is <:+: h.events := by
    rw [events_eq_heard, hheard]
    exact (Hub.events_in_inbox_infix c hstart).trans hstream
  obtain ⟨n, hes⟩ := History.consecutive_stretch hstretch
  have hr := (ofSnapshot s).run_replica is
  rw [Replica.heedAll_eq_offered] at hr
  have htracks := hs.tracks.offered fun e he => hstretch.subset he
  have hquiet : ∀ k, ConsecutiveFrom k (events is) → k ≤ s.changeId.number → ∀ expected got,
      .drift expected got ∉ reloads ((ofSnapshot s).run is).2 := by
    intro k hk hle expected got hd
    rw [run_reloads] at hd
    exact Replica.no_drift (r := .ofSnapshot s) hk hle expected got (List.mem_of_mem_take hd)
  refine ⟨fun lo m hlo hm hw => ?_, fun lo hlo hw => ?_, fun hnone => ?_⟩
  · have hlo' := hes.head_number hlo
    have hm' := hes.last_number hm
    have hn : n ≤ s.changeId.number := by omega
    have hwm : ((Replica.ofSnapshot s).offered (events is)).watermark.number =
        max s.changeId.number m.changeId.number := by
      rw [hm']
      exact Replica.watermark_offered hes hn
    refine ⟨hquiet n hes hn, ?_, ?_⟩
    · rw [hr]
      exact hwm
    · rw [hr, ← hwm]
      exact htracks.state
  · have hlo' := hes.head_number hlo
    have hoff : (Replica.ofSnapshot s).offered (events is) = .ofSnapshot s :=
      Replica.offered_across_gap hs.no_gap hes (by change s.changeId.number < n; omega)
    refine ⟨reloads_across_gap rfl hs.no_gap hlo hw, ?_, ?_⟩
    · rw [hr]
      exact congrArg Replica.watermark hoff
    · rw [hr]
      exact (congrArg Replica.entities hoff).trans hs.state
  · rw [hnone] at hr
    refine ⟨hquiet 0 (by rw [hnone]; trivial) (Nat.zero_le _), ?_, ?_⟩
    · rw [hr]
      rfl
    · rw [hr]
      exact hs.state

/-- A hub hears of two changes of `tide`, then a tab attaches, then the third
change comes. -/
def turn : List HubInput :=
  [.link 1 .opened,
    .link 1 (.message (.sync ⟨⟨5⟩, .upsertPuzzle { id := ⟨1⟩, name := "Fish", round := ⟨2⟩ }⟩)),
    .link 1 (.message (.sync ⟨⟨6⟩, .upsertRound { id := ⟨2⟩, name := "Ocean" }⟩)),
    .fromTab (.start ⟨1⟩ none) (some 0),
    .link 1 (.message (.sync ⟨⟨7⟩, .deletePuzzle ⟨1⟩⟩))]

theorem turn_attachesOnce : Hub.AttachesOnce ⟨1⟩ 0 turn :=
  ⟨turn.take 3, none, turn.drop 4, rfl, by simp [turn, Hub.Foreign, HubInput.start?],
    by simp [turn, Hub.Foreign, HubInput.start?]⟩

/-- If the hub keeps one event only, the later snapshot of `tide` is caught up
with, and the earlier is not. -/
theorem tabs_at_the_turn :
    let inbox := (mail 0 (Hub.life { recentCapacity := 1 } turn).2).map message
    ((ofSnapshot History.flood).run inbox).1.replica.entities = History.tide.stateAt 7 ∧
    reloads ((ofSnapshot History.ebb).run inbox).2 = [.drift ⟨5⟩ ⟨6⟩] := by
  have hstream : Hub.pushed { recentCapacity := 1 } turn <:+: History.tide.events := by decide
  have hheard := heard_map_message (mail 0 (Hub.life { recentCapacity := 1 } turn).2)
  refine ⟨?_, ?_⟩
  · have hlate := a_late_tab_catches_up_or_asks_to_start_over History.tide_holds_flood
      turn_attachesOnce hstream hheard
    exact (hlate.1 _ _ rfl rfl (by decide)).2.2
  · have hlate := a_late_tab_catches_up_or_asks_to_start_over History.tide_holds_ebb
      turn_attachesOnce hstream hheard
    exact (hlate.2.1 _ rfl (by decide)).1

/-- The stream is dead before the tab attaches. -/
def deadTurn : List HubInput :=
  turn.take 3 ++ [.link 1 (.ended (.closed replayGoneCode "")), .fromTab (.start ⟨1⟩ none) (some 0)]

/-- Whoever attaches to a dead stream hears of that first, and asks to start over
because of it. The gap behind it is told to nobody. -/
theorem a_dead_stream_hides_the_gap :
    let inbox := (mail 0 (Hub.life { recentCapacity := 1 } deadTurn).2).map message
    History.tide.Holds History.ebb ∧ Hub.AttachesOnce ⟨1⟩ 0 deadTurn ∧
    Hub.pushed { recentCapacity := 1 } deadTurn <:+: History.tide.events ∧
    (events inbox).map (·.changeId) = [⟨6⟩] ∧ History.ebb.changeId = ⟨4⟩ ∧
    reloads ((ofSnapshot History.ebb).run inbox).2 = [.dead] ∧
    reloads ((ofSnapshot History.ebb).run inbox).2 ≠ [.drift ⟨5⟩ ⟨6⟩] := by
  refine ⟨History.tide_holds_ebb, ⟨deadTurn.take 4, none, [], rfl, ?_, ?_⟩, ?_⟩
  · simp [deadTurn, turn, Hub.Foreign, HubInput.start?]
  · simp
  · decide

end Tab

end HuntBoard
