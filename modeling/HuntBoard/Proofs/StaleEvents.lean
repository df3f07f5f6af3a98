-- An overlay never shows a write whose change the tab's copy of the server's state
-- holds already. So an event that comes again finds nothing to do.
import HuntBoard.Proofs.Desk

namespace HuntBoard

/-! ## What a turn keeps -/

/-- Of the accepted writes, only those are shown that the server's state does not hold. -/
def Holding.Fresh (h : Holding) : Prop :=
  ∀ c edit, h.overlay.get? (.confirmed c) = some edit → h.replica.watermark < c

namespace Holding

variable {h : Holding}

theorem Fresh.forget (hf : h.Fresh) (pending : Option WriteKey) :
    Fresh ⟨h.replica, h.overlay.forget pending⟩ := by
  intro c edit hc
  simp only [Overlay.get?_forget] at hc
  split at hc
  · simp at hc
  · exact hf c edit hc

/-- The watermark moves only with an event that is applied, and what it passes is pruned. -/
theorem Fresh.sync (hf : h.Fresh) (e : SyncEvent) : (h.sync e).Fresh := by
  have herased := hf.forget (some (.confirmed e.changeId))
  unfold Holding.sync
  rcases h.replica.apply_cases e with ⟨_, ha⟩ | ⟨_, _, ha⟩ | ⟨_, _, ha⟩ <;> rw [ha]
  · exact herased
  · exact herased
  · intro c edit hc
    simp only [Overlay.get?_pruneThrough] at hc
    split at hc
    · rename_i hbeyond
      apply ChangeId.not_le.1
      simpa [Overlay.outlives] using hbeyond
    · simp at hc

/-- What the server accepted as a change up to the watermark is not shown. -/
theorem Fresh.settle (hf : h.Fresh) (s : Settlement) : (h.settle s).Fresh := by
  have hforgotten := hf.forget s.write.pending
  unfold Holding.settle
  cases s.accepted? with
  | none => exact hforgotten
  | some p =>
    intro c edit hc
    simp only [Overlay.get?_confirm] at hc
    split at hc
    · rename_i hnew
      obtain ⟨hkey, hbeyond⟩ := hnew
      rw [WriteKey.confirmed.inj hkey]
      exact ChangeId.not_le.1 hbeyond
    · exact hforgotten c edit hc

theorem Fresh.heed (hf : h.Fresh) (t : Turn) : (h.heed t).Fresh := by
  unfold Holding.heed
  split
  · exact hf.sync _
  · exact hf
  · exact hf

theorem Fresh.addPending (hf : h.Fresh) (e : Edit) :
    Fresh ⟨h.replica, (h.overlay.addPending e).1⟩ := by
  intro c edit hc
  rw [Overlay.get?_addPending_confirmed] at hc
  exact hf c edit hc

end Holding

namespace Desk

variable {d : Desk}

theorem fresh_turn (hf : d.tab.holding.Fresh) (t : Turn) : (d.turn t).tab.holding.Fresh := by
  cases d.turn_move t with
  | heeded _ hh _ => rw [hh]; exact hf.heed t
  | shown name request e _ _ hh _ => rw [hh]; exact hf.addPending e
  | asked name request optimistic _ _ hh _ => rw [hh]; exact hf
  | settled name w outcome _ _ hh _ => rw [hh]; exact hf.settle _
  | unknown name outcome _ _ hsame => rw [hsame]; exact hf

theorem fresh_play (hf : d.tab.holding.Fresh) (ts : List Turn) :
    (d.play ts).tab.holding.Fresh := by
  induction ts generalizing d with
  | nil => exact hf
  | cons t ts ih => exact ih (fresh_turn hf t)

theorem fresh_ofSnapshot (s : Snapshot) : (ofSnapshot s).tab.holding.Fresh := by
  intro c edit hc
  simp [ofSnapshot, Tab.ofSnapshot, Tab.holding, Overlay.get?] at hc

end Desk

/-! ## An event that comes again -/

namespace Tab

variable {t : Tab} {e : SyncEvent} {es : List SyncEvent}

theorem sync_of_stale (hf : t.holding.Fresh) (he : e.changeId ≤ t.replica.watermark) :
    t.sync e = (t, []) := by
  have hnone : t.overlay.get? (.confirmed e.changeId) = none := by
    cases hget : t.overlay.get? (.confirmed e.changeId) with
    | none => rfl
    | some edit => exact absurd he (ChangeId.not_le.2 (hf e.changeId edit hget))
  have hecho : t.echo e.changeId = t := by
    unfold echo
    simp only [hnone]
  unfold sync
  simp only [hecho, Replica.apply_stale (ChangeId.le_iff_number.1 he)]

theorem run_of_stale (hf : t.holding.Fresh) (hes : ∀ e ∈ es, e.changeId ≤ t.replica.watermark) :
    t.run (es.map (.message ∘ .sync)) = (t, []) := by
  induction es with
  | nil => rfl
  | cons e es ih =>
    rw [List.forall_mem_cons] at hes
    have hstep : t.step (.message (.sync e)) = (t, []) := sync_of_stale hf hes.1
    rw [List.map_cons, run_cons, Function.comp_apply, hstep]
    simp only [Outcome.andThen, ih hes.2, List.append_nil]

end Tab

/-! ## The law -/

namespace Desk

/-- Whatever came to a tab in whatever order, all accepted writes that it shows became
changes beyond its watermark. So if events up to the watermark come again, be it one or
all that a hub keeps, the tab is after them what it was before: it shows the same, its
board is no more out of date than it was, and it asks for nothing. -/
theorem nothing_is_shown_over_what_is_held (s : Snapshot) (ts : List Turn) :
    let t := ((ofSnapshot s).play ts).tab
    (∀ c, .confirmed c ∈ t.overlay.edits.keys → t.replica.watermark < c) ∧
    ∀ es : List SyncEvent, (∀ e ∈ es, e.changeId ≤ t.replica.watermark) →
      t.run (es.map (.message ∘ .sync)) = (t, []) := by
  intro t
  have hf : t.holding.Fresh := fresh_play (fresh_ofSnapshot s) ts
  constructor
  · intro c hc
    rw [KeyedMap.mem_keys, Option.isSome_iff_exists] at hc
    obtain ⟨edit, hedit⟩ := hc
    exact hf c edit hedit
  · intro es hes
    exact Tab.run_of_stale hf hes

/-- A tab starts from change 4 with a gap behind it. The server accepts a new name as
change 9, and the stream goes on with change 8. -/
def leap : List Turn :=
  [.written 1 (.updatePuzzle ⟨1⟩ { name := some "Whale" }) true,
    .settled 1 (.ok { changeId := ⟨9⟩ }),
    .heard (.sync ⟨⟨8⟩, .upsertPuzzle { id := ⟨1⟩, name := "Fish", round := ⟨2⟩ }⟩)]

theorem the_stream_before_the_leap_is_passed_over :
    let t := ((ofSnapshot { changeId := ⟨4⟩, knownGap := true }).play leap).tab
    t.replica.watermark = ⟨8⟩ ∧ .confirmed ⟨9⟩ ∈ t.overlay.edits.keys ∧
    t.replica.watermark < ⟨9⟩ ∧
    t.run [.message (.sync ⟨⟨6⟩, .deletePuzzle ⟨1⟩⟩), .message (.sync ⟨⟨8⟩, .deletePuzzle ⟨1⟩⟩)] =
      (t, []) := by
  intro t
  obtain ⟨hkeys, hagain⟩ :=
    nothing_is_shown_over_what_is_held { changeId := ⟨4⟩, knownGap := true } leap
  have hmem : .confirmed ⟨9⟩ ∈ t.overlay.edits.keys := by decide
  refine ⟨by decide, hmem, hkeys _ hmem, ?_⟩
  apply hagain [⟨⟨6⟩, .deletePuzzle ⟨1⟩⟩, ⟨⟨8⟩, .deletePuzzle ⟨1⟩⟩]
  decide

end Desk

end HuntBoard
