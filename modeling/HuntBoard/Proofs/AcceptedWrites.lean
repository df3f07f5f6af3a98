-- A write that the server accepted is shown until the tab's copy of the server's
-- state holds it, as long as the tab does not refuse the event of that very change.
import HuntBoard.Proofs.Desk

namespace HuntBoard

/-! ## One turn -/

/-- The tab refuses the event of a change because others before it are missing. -/
def Replica.Refuses (r : Replica) (e : SyncEvent) : Prop :=
  ∃ expected got, (r.apply e).2 = .drift expected got

/-- The write that became a change is shown, or the tab's copy has come that far. -/
def Holding.Keeps (h : Holding) (c : ChangeId) : Prop :=
  c.number ≤ h.replica.watermark.number ∨ (h.overlay.get? (.confirmed c)).isSome

namespace Holding

variable {h : Holding} {c : ChangeId} {e : SyncEvent}

/-- An event that is refused takes away what is shown of its own change, and nothing else. -/
theorem sync_of_refused (hr : h.replica.Refuses e) :
    h.sync e = ⟨h.replica, h.overlay.erase (.confirmed e.changeId)⟩ := by
  obtain ⟨expected, got, hd⟩ := hr
  rcases h.replica.apply_cases e with ⟨_, ha⟩ | ⟨_, _, ha⟩ | ⟨_, _, ha⟩
  · simp [ha] at hd
  · unfold sync
    rw [ha]
  · simp [ha] at hd

theorem Keeps.sync (hk : h.Keeps c) (hne : h.replica.Refuses e → e.changeId ≠ c) :
    (h.sync e).Keeps c := by
  rcases h.replica.apply_cases e with ⟨hle, ha⟩ | ⟨_, _, ha⟩ | ⟨hlt, _, ha⟩
  · unfold Holding.sync Keeps
    rw [ha]
    by_cases hc : c = e.changeId
    · exact Or.inl (hc ▸ hle)
    · simpa [Keeps, Overlay.get?_erase, hc] using hk
  · have hrefused : h.replica.Refuses e := ⟨_, _, by rw [ha]⟩
    rw [sync_of_refused hrefused]
    simpa [Keeps, Overlay.get?_erase, Ne.symm (hne hrefused)] using hk
  · unfold Holding.sync Keeps
    rw [ha]
    dsimp only
    by_cases hc : c.number ≤ e.changeId.number
    · exact Or.inl hc
    · right
      have hold : (h.overlay.get? (.confirmed c)).isSome := hk.resolve_left (by omega)
      have hce : c ≠ e.changeId := by
        rintro rfl
        exact hc (Nat.le_refl _)
      simpa [Overlay.get?_pruneThrough, Overlay.get?_erase, Overlay.outlives, hce,
        ChangeId.le_iff_number, hc] using hold

/-- Outcomes put accepted writes over others, and take none away. -/
theorem Keeps.settle (hk : h.Keeps c) {s : Settlement} (hs : s.write.Numbered) :
    (h.settle s).Keeps c := by
  refine hk.imp (fun hle => ?_) fun hold => ?_
  · rwa [settle_replica]
  · rw [settle_get?_confirmed h hs, Option.isSome_or, hold, Bool.or_true]

end Holding

namespace Tab

/-- So an event that is refused leaves the overlay as it was just if nothing is shown
of its own change. -/
theorem sync_overlay_of_refused {t : Tab} {e : SyncEvent} (hr : t.replica.Refuses e) :
    (t.sync e).1.overlay = t.overlay.erase (.confirmed e.changeId) ∧
    ((t.sync e).1.overlay = t.overlay ↔ t.overlay.get? (.confirmed e.changeId) = none) := by
  have hoverlay : (t.sync e).1.overlay = t.overlay.erase (.confirmed e.changeId) :=
    congrArg Holding.overlay ((t.sync_holding e).trans (Holding.sync_of_refused hr))
  refine ⟨hoverlay, fun hsame => ?_, fun hnone => ?_⟩
  · rw [← hsame, hoverlay, Overlay.get?_erase, if_pos rfl]
  · rw [hoverlay, Overlay.erase_of_get?_none _ _ hnone]

end Tab

namespace Desk

variable {d : Desk} {c : ChangeId} {t : Turn} {ts : List Turn}

theorem keeps_turn (hk : d.tab.holding.Keeps c) (hd : ∀ x ∈ d.writes, x.2.Numbered)
    (ht : ∀ e, t = .heard (.sync e) → d.tab.replica.Refuses e → e.changeId ≠ c) :
    (d.turn t).tab.holding.Keeps c := by
  cases d.turn_move t with
  | heeded _ hh _ =>
    rw [hh]
    unfold Holding.heed
    split
    · exact hk.sync (ht _ rfl)
    · exact hk
    · exact hk
  | shown name request e _ _ hh _ =>
    rw [hh]
    exact hk.imp id fun hold => by rwa [Overlay.get?_addPending_confirmed]
  | asked name request optimistic _ _ hh _ => rwa [hh]
  | settled name w outcome _ hw hh _ =>
    rw [hh]
    exact hk.settle (hd _ (mem_of_write? hw))
  | unknown name outcome _ _ hsame => rwa [hsame]

/-! ## Many turns -/

/-- In the course of some turns, the event of a change comes while the tab has to
refuse it. -/
def RefusesIn (d : Desk) (c : ChangeId) (ts : List Turn) : Prop :=
  ∃ before e after, ts = before ++ .heard (.sync e) :: after ∧ e.changeId = c ∧
    (d.play before).tab.replica.Refuses e

theorem keeps_play (hk : d.tab.holding.Keeps c) (hd : ∀ x ∈ d.writes, x.2.Numbered)
    (hts : ¬ d.RefusesIn c ts) : (d.play ts).tab.holding.Keeps c := by
  induction ts generalizing d with
  | nil => exact hk
  | cons t ts ih =>
    refine ih (keeps_turn hk hd fun e ht hr hc => hts ?_) (turn_numbered hd t) ?_
    · exact ⟨[], e, ts, by rw [ht]; rfl, hc, hr⟩
    · rintro ⟨before, e, after, rfl, hc, hr⟩
      exact hts ⟨t :: before, e, after, rfl, hc, hr⟩

/-! ## The law -/

/-- From the time that the server accepts a write, as a change that the tab's copy
does not hold yet, until the copy holds it, the overlay shows the write, whatever else
comes. The one thing that must not come is the event of that change at a time when
others before it are missing. For an event that a tab refuses takes away what is shown
of its own change: the overlay stays as it was if and only if nothing is. -/
theorem an_accepted_write_is_shown_until_it_is_held (s : Snapshot) {before after : List Turn}
    {name : Nat} {w : OpenWrite} {reply : WriteReply} {edit : Edit}
    (hw : ((ofSnapshot s).play before).write? name = some w)
    (hedit : reply.edit? w.request = some edit)
    (habove : ¬ reply.changeId ≤ ((ofSnapshot s).play before).tab.replica.watermark)
    (hafter : ¬ ((ofSnapshot s).play (before ++ [.settled name (.ok reply)])).RefusesIn
      reply.changeId after) :
    let d := (ofSnapshot s).play (before ++ .settled name (.ok reply) :: after)
    (reply.changeId ≤ d.tab.replica.watermark ∨
      (d.tab.overlay.get? (.confirmed reply.changeId)).isSome) ∧
    ∀ (t : Tab) (e : SyncEvent), t.replica.Refuses e →
      (t.sync e).1.overlay = t.overlay.erase (.confirmed e.changeId) ∧
      ((t.sync e).1.overlay = t.overlay ↔ t.overlay.get? (.confirmed e.changeId) = none) := by
  intro d
  refine ⟨?_, fun t e hr => Tab.sync_overlay_of_refused hr⟩
  have hd : ∀ x ∈ ((ofSnapshot s).play before).writes, x.2.Numbered :=
    play_numbered (by simp [ofSnapshot]) before
  have hshown : Settlement.shown? ⟨w, .ok reply⟩
      ((ofSnapshot s).play before).tab.replica.watermark reply.changeId = some edit := by
    simp [Settlement.shown?, Settlement.accepted?, Except.toOption, hedit, habove]
  have hfirst : (((ofSnapshot s).play before).turn (.settled name (.ok reply))).tab.holding.Keeps
      reply.changeId := by
    right
    rw [(turn_settled hw (.ok reply)).1,
      Holding.settle_get?_confirmed _ (hd _ (mem_of_write? hw))]
    simp [Tab.holding, hshown]
  rw [play_append] at hafter
  have hlast := keeps_play hfirst (turn_numbered hd _) hafter
  have hplay : d = (((ofSnapshot s).play before).turn (.settled name (.ok reply))).play after :=
    play_append ..
  rw [hplay, ChangeId.le_iff_number]
  exact hlast

/-- A puzzle gets a new name, which the server accepts as change 7 when the tab's copy
holds change 4. -/
def accepted : List Turn :=
  [.written 1 (.updatePuzzle ⟨1⟩ { name := some "Whale" }) true,
    .settled 1 (.ok { changeId := ⟨7⟩ })]

/-- Changes 5 and 8 come, and the second is refused. -/
def others : List Turn :=
  [.heard (.sync ⟨⟨5⟩, .upsertPuzzle { id := ⟨1⟩, name := "Fish", round := ⟨2⟩ }⟩),
    .heard (.sync ⟨⟨8⟩, .deleteRound ⟨3⟩⟩)]

theorem the_new_name_is_shown_meanwhile :
    let d := (ofSnapshot { changeId := ⟨4⟩ }).play (accepted ++ others)
    let e : SyncEvent := ⟨⟨9⟩, .deleteRound ⟨3⟩⟩
    d.tab.replica.watermark = ⟨5⟩ ∧ (d.tab.overlay.get? (.confirmed ⟨7⟩)).isSome ∧
    d.tab.replica.Refuses e ∧ (d.tab.sync e).1.overlay = d.tab.overlay := by
  intro d e
  have hothers : ¬ ((ofSnapshot { changeId := ⟨4⟩ }).play accepted).RefusesIn ⟨7⟩ others := by
    rintro ⟨before, e, after, heq, hc, -⟩
    have he : .heard (.sync e) ∈ others := by simp [heq]
    simp only [others, List.mem_cons, Turn.heard.injEq, HubMessage.sync.injEq, List.not_mem_nil,
      or_false] at he
    rcases he with rfl | rfl <;> simp at hc
  have hlaw := an_accepted_write_is_shown_until_it_is_held { changeId := ⟨4⟩ }
    (show ((ofSnapshot { changeId := ⟨4⟩ }).play (accepted.take 1)).write? 1 =
      some ⟨.updatePuzzle ⟨1⟩ { name := some "Whale" }, some (.pending 0)⟩ by decide)
    (show WriteReply.edit? _ { changeId := ⟨7⟩ } =
      some (.patchPuzzle ⟨1⟩ { name := some "Whale" }) by decide)
    (by decide) hothers
  have hrefused : d.tab.replica.Refuses e := ⟨⟨6⟩, ⟨9⟩, by decide⟩
  exact ⟨by decide, hlaw.1.resolve_left (by decide), hrefused, (hlaw.2 _ _ hrefused).2.2 (by decide)⟩

/-- If it is change 7 itself that is refused, the new name is shown no more, though the
copy still holds change 4 and nothing of the new name. -/
theorem a_refused_event_takes_the_new_name_away :
    let d := (ofSnapshot { changeId := ⟨4⟩ }).play accepted
    let d' := d.turn (.heard (.sync
      ⟨⟨7⟩, .upsertPuzzle { id := ⟨1⟩, name := "Whale", round := ⟨2⟩ }⟩))
    d.tab.overlay.get? (.confirmed ⟨7⟩) = some (.patchPuzzle ⟨1⟩ { name := some "Whale" }) ∧
    d'.tab.replica = d.tab.replica ∧ d'.tab.replica.watermark = ⟨4⟩ ∧
    d'.tab.overlay.get? (.confirmed ⟨7⟩) = none ∧ d'.tab.overlay ≠ d.tab.overlay := by decide

end Desk

end HuntBoard
