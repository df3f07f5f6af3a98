-- What a tab shows does not flicker while one of its own writes becomes part of the
-- server's state: not when the server accepts the write, and not when its event comes.
import HuntBoard.Proofs.Entities
import HuntBoard.Proofs.Desk

namespace HuntBoard

/-! ## The place of an edit -/

namespace Overlay

variable {o : Overlay} {c w : ChangeId} {n : UInt64} {e : Edit}

theorem pendingPart_of_first (hedit : o.get? (.pending n) = some e)
    (hfirst : ∀ m, .pending m ∈ o.edits.keys → n ≤ m) :
    ∃ rest, o.pendingPart.toList = (.pending n, e) :: rest := by
  apply KeyedMap.toList_eq_cons_of_least
  · rw [get?_pendingPart, hedit]
  · intro key hkey hlt
    rw [KeyedMap.mem_keys, pendingPart, KeyedMap.get?_filterKeys] at hkey
    cases key with
    | confirmed c' => simp [WriteKey.isPending] at hkey
    | pending m =>
      have hle : n ≤ m := hfirst m ((KeyedMap.mem_keys ..).2 hkey)
      exact UInt64.not_le.2 (WriteKey.compare_pending_eq_lt.1 hlt) hle

theorem confirmedPart_before_last (hlast : ∀ c', .confirmed c' ∈ o.edits.keys → c' < c) :
    ∀ x ∈ o.confirmedPart.toList, compare x.1 (.confirmed c) = .lt := by
  intro x hx
  have hmem := List.mem_filter.1 hx
  obtain ⟨key, e'⟩ := x
  cases key with
  | pending m => simp [WriteKey.isPending] at hmem
  | confirmed c' =>
    apply WriteKey.compare_confirmed_eq_lt.2
    exact hlast c' (List.mem_map.2 ⟨_, hmem.1, rfl⟩)

/-- The first pending edit, confirmed behind all that are confirmed already, stands where
it stood. -/
theorem edits_of_accepted (hedit : o.get? (.pending n) = some e)
    (hfirst : ∀ m, .pending m ∈ o.edits.keys → n ≤ m)
    (hlast : ∀ c', .confirmed c' ∈ o.edits.keys → c' < c) (hw : w < c) :
    ((o.erase (.pending n)).confirm c e w).1.toList.map (·.2) = o.toList.map (·.2) := by
  obtain ⟨rest, hrest⟩ := pendingPart_of_first hedit hfirst
  have herased : (o.pendingPart.erase (.pending n)).toList = rest :=
    KeyedMap.toList_erase_middle (l := []) hrest
  have hadded : (o.confirmedPart.insert (.confirmed c) e).toList =
      o.confirmedPart.toList ++ [(.confirmed c, e)] :=
    KeyedMap.toList_insert_last e (confirmedPart_before_last hlast)
  rw [toList_eq_halves, confirm_confirmedPart _ _ _ _ (ChangeId.not_le.2 hw),
    confirm_pendingPart, erase_pendingPart, erase_pending_confirmedPart, herased, hadded,
    o.toList_eq_halves, hrest]
  simp

/-- The first confirmed edit of all is the one that its own event takes away. -/
theorem toList_of_echoed (hedit : o.get? (.confirmed c) = some e)
    (hfirst : ∀ c', .confirmed c' ∈ o.edits.keys → c ≤ c') :
    ∃ rest, o.toList = (.confirmed c, e) :: rest ∧
      ((o.erase (.confirmed c)).pruneThrough c).1.toList = rest := by
  have hcons : ∃ rest, o.toList = (.confirmed c, e) :: rest := by
    apply KeyedMap.toList_eq_cons_of_least hedit
    intro k hk hlt
    cases k with
    | pending m => exact absurd (show Ordering.gt = .lt from hlt) (by decide)
    | confirmed c' =>
      exact ChangeId.not_le.2 (WriteKey.compare_confirmed_eq_lt.1 hlt) (hfirst c' hk)
  obtain ⟨rest, hrest⟩ := hcons
  refine ⟨rest, hrest, ?_⟩
  have herased : (o.erase (.confirmed c)).toList = rest :=
    KeyedMap.toList_erase_middle (l := []) hrest
  -- All that stands behind the first edit outlives its change.
  have houtlive : ∀ x ∈ rest, outlives c x.1 = true := by
    have hascending := o.edits.ascending
    intro x hx
    rw [show o.edits.toList = _ from hrest, Entries.Ascending, List.pairwise_cons] at hascending
    have hlt := hascending.1 x hx
    obtain ⟨key, e'⟩ := x
    cases key with
    | pending m => rfl
    | confirmed c' =>
      simpa [outlives] using ChangeId.not_le.2 (WriteKey.compare_confirmed_eq_lt.1 hlt)
  change (o.erase (.confirmed c)).toList.filter (fun x => outlives c x.1) = rest
  rw [herased, List.filter_eq_self]
  exact houtlive

end Overlay

/-! ## What is shown -/

/-- What is known of a write before the server answers is what is known of it then. -/
theorem WriteReply.edit?_of_edit? {request : WriteRequest} {edit : Edit}
    (h : request.edit? = some edit) (reply : WriteReply) : reply.edit? request = some edit := by
  cases request with
  | createPuzzle p => simp [WriteRequest.edit?] at h
  | createRound r => simp [WriteRequest.edit?] at h
  | _ => simpa [WriteReply.edit?] using h

namespace Holding

variable {h : Holding}

/-- What is to be shown of what a tab holds. -/
def shown (h : Holding) : Entities := h.replica.shown h.overlay

theorem settle_shown {w : OpenWrite} {n : UInt64} {reply : WriteReply} {edit : Edit}
    (hw : w.pending = some (.pending n)) (hrequest : w.request.edit? = some edit)
    (hedit : h.overlay.get? (.pending n) = some edit)
    (hfirst : ∀ m, .pending m ∈ h.overlay.edits.keys → n ≤ m)
    (hlast : ∀ c, .confirmed c ∈ h.overlay.edits.keys → c < reply.changeId)
    (hnew : h.replica.watermark < reply.changeId) :
    (h.settle ⟨w, .ok reply⟩).shown = h.shown := by
  have haccepted : Settlement.accepted? ⟨w, .ok reply⟩ = some (reply.changeId, edit) := by
    simp [Settlement.accepted?, Except.toOption, reply.edit?_of_edit? hrequest]
  unfold settle shown Replica.shown Entities.under
  simp only [haccepted, hw, Overlay.forget, Overlay.edits_of_accepted hedit hfirst hlast hnew]

/-- The event does to the server's state what its edit did to what was shown, and did it
before all other edits. -/
theorem sync_shown {edit : Edit} {change : Change} (hkeyed : h.replica.entities.Keyed)
    (hbeyond : ∀ c, .confirmed c ∈ h.overlay.edits.keys → h.replica.watermark < c)
    (hedit : h.overlay.get? (.confirmed h.replica.watermark.next) = some edit)
    (hchange : h.replica.entities.changeFor? edit = some change) :
    (h.sync ⟨h.replica.watermark.next, change⟩).shown = h.shown := by
  have hmem : .confirmed h.replica.watermark.next ∈ h.overlay.edits.keys := by
    rw [KeyedMap.mem_keys]
    exact Option.isSome_iff_exists.2 ⟨edit, hedit⟩
  have hnext := ChangeId.next_number (ChangeId.lt_iff_number.1 (hbeyond _ hmem))
  have hfirst : ∀ c, .confirmed c ∈ h.overlay.edits.keys → h.replica.watermark.next ≤ c := by
    intro c hc
    have hlt := ChangeId.lt_iff_number.1 (hbeyond c hc)
    rw [ChangeId.le_iff_number]
    omega
  obtain ⟨rest, hbefore, hafter⟩ := Overlay.toList_of_echoed hedit hfirst
  have hsame := Entities.change_of_changeFor? hkeyed hchange
  unfold sync shown Replica.shown Entities.under
  rw [Replica.apply_next hnext]
  simp only [hbefore, hafter, hsame, List.map_cons, List.foldl_cons]

end Holding

/-! ## Tabs -/

theorem Replica.Reached.heed {r : Replica} (h : r.Reached) (i : TabInput) :
    (r.heed i).Reached := by
  unfold Replica.heed
  split
  · exact h.offered _
  · exact h.set _
  · exact h

namespace Tab

theorem Reached.replica_reached {t : Tab} {ws : List OpenWrite} (h : Reached t ws) :
    t.replica.Reached := by
  induction h with
  | opened s => exact .opened s
  | @step t ws _ i _ ih =>
    rw [(t.step_heeds i).replica]
    exact ih.heed i
  | @refreshed t ws _ now ih =>
    have hsame : (t.refresh now).replica = t.replica :=
      congrArg Holding.replica (t.refresh_holding now)
    rw [hsame]
    exact ih

/-- Whatever else the overlay of a tab holds, what the tab shows does not change at the
two times at which an own write moves on.

The first is the outcome: the write is the oldest under way, and the server accepts it as
a change behind all others that are shown. The second is the event of the change that
comes next, if that does to the server's state what the write was shown to do: the puzzle
or round with the patch, the one that the patch makes, or the deletion. -/
theorem own_writes_do_not_flicker {t : Tab} (ht : t.replica.Reached) :
    (∀ (w : OpenWrite) (n : UInt64) (edit : Edit) (reply : WriteReply),
      w.pending = some (.pending n) → w.request.edit? = some edit →
      t.overlay.get? (.pending n) = some edit →
      (∀ m, .pending m ∈ t.overlay.edits.keys → n ≤ m) →
      (∀ c, .confirmed c ∈ t.overlay.edits.keys → c < reply.changeId) →
      t.replica.watermark < reply.changeId →
      (t.settled w (.ok reply)).1.shown = t.shown) ∧
    ∀ (edit : Edit) (change : Change),
      (∀ c, .confirmed c ∈ t.overlay.edits.keys → t.replica.watermark < c) →
      t.overlay.get? (.confirmed t.replica.watermark.next) = some edit →
      t.replica.entities.changeFor? edit = some change →
      (t.sync ⟨t.replica.watermark.next, change⟩).1.shown = t.shown := by
  constructor
  · intro w n edit reply hw hrequest hedit hfirst hlast hnew
    have hsettled := t.settled_holding ⟨w, .ok reply⟩
    have hshown := Holding.settle_shown (h := t.holding) hw hrequest hedit hfirst hlast hnew
    exact (congrArg Holding.shown hsettled).trans hshown
  · intro edit change hbeyond hedit hchange
    have hsynced := t.sync_holding ⟨t.replica.watermark.next, change⟩
    have hshown := Holding.sync_shown (h := t.holding) ht.keyed hbeyond hedit hchange
    exact (congrArg Holding.shown hsynced).trans hshown

/-- A tab has puzzle 1 of change 4 before it, and shows a new name for it and a deletion. -/
def atWork : Tab :=
  ((ofSnapshot { changeId := ⟨4⟩, puzzles := [{ id := ⟨1⟩, name := "Fish", round := ⟨2⟩ }] }).run
    [.write naming.request true, .write (.deletePuzzle ⟨3⟩) true]).1

theorem atWork_reached : Reached atWork [naming, ⟨.deletePuzzle ⟨3⟩, some (.pending 1)⟩] :=
  .step (.step (.opened _) (.write naming.request true) (by simp))
    (.write (.deletePuzzle ⟨3⟩) true) (by simp)

/-- The server accepts the new name as change 5. -/
def atRest : Tab := (atWork.settled naming (.ok { changeId := ⟨5⟩ })).1

theorem atRest_reached : Reached atRest [⟨.deletePuzzle ⟨3⟩, some (.pending 1)⟩] :=
  .step atWork_reached (.settled naming (.ok { changeId := ⟨5⟩ })) (by simp)

/-- The new name is the tab's own, then the server's word for it, then the server's state. -/
theorem the_whale_does_not_flicker :
    let held := (atRest.sync
      ⟨⟨5⟩, .upsertPuzzle { id := ⟨1⟩, name := "Whale", round := ⟨2⟩ }⟩).1
    atWork.overlay.edits.keys = [.pending 0, .pending 1] ∧ atRest.shown = atWork.shown ∧
    atRest.overlay.edits.keys = [.confirmed ⟨5⟩, .pending 1] ∧ held.shown = atRest.shown ∧
    held.overlay.edits.keys = [.pending 1] ∧
    (held.shown.puzzles.get? ⟨1⟩).map (·.name) = some "Whale" := by
  intro held
  have hwork : atWork.overlay.edits.keys = [.pending 0, .pending 1] := by decide
  have hrest : atRest.overlay.edits.keys = [.confirmed ⟨5⟩, .pending 1] := by decide
  have haccepted : atRest.shown = atWork.shown := by
    apply (own_writes_do_not_flicker atWork_reached.replica_reached).1 naming 0
      (.patchPuzzle ⟨1⟩ { name := some "Whale" }) { changeId := ⟨5⟩ }
    · rfl
    · rfl
    · decide
    · simp [hwork]
    · simp [hwork]
    · decide
  have hheld : held.shown = atRest.shown := by
    apply (own_writes_do_not_flicker atRest_reached.replica_reached).2
      (.patchPuzzle ⟨1⟩ { name := some "Whale" })
    · intro c hc
      obtain rfl : c = ⟨5⟩ := by simpa [hrest] using hc
      decide
    · decide
    · decide
  exact ⟨hwork, haccepted, hrest, hheld, by decide, by decide⟩

end Tab

end HuntBoard
