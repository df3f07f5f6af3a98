-- The pending half of a tab's overlay is just its writes under way: no write stays
-- there once it has an outcome, and none is taken away or written over before.
import HuntBoard.Proofs.Desk

namespace HuntBoard

/-- What a write shows before it has an outcome. -/
def OpenWrite.shown? (w : OpenWrite) : Option (WriteKey × Edit) :=
  w.pending.bind fun key => w.request.edit?.map (key, ·)

/-! ## What leaves the pending half alone -/

namespace Holding

variable (h : Holding) (e : SyncEvent) (n : UInt64)

theorem sync_get?_pending :
    (h.sync e).overlay.get? (.pending n) = h.overlay.get? (.pending n) := by
  unfold sync
  dsimp only
  split <;> simp [Overlay.get?_pruneThrough, Overlay.get?_erase, Overlay.outlives]

theorem sync_nextPending : (h.sync e).overlay.nextPending = h.overlay.nextPending := by
  unfold sync
  dsimp only
  split <;> rfl

theorem heed_pendingPart (t : Turn) :
    (h.heed t).overlay.pendingPart = h.overlay.pendingPart ∧
    (h.heed t).overlay.nextPending = h.overlay.nextPending := by
  unfold heed
  split
  · exact ⟨Overlay.pendingPart_congr (h.sync_get?_pending _), h.sync_nextPending _⟩
  · exact ⟨rfl, rfl⟩
  · exact ⟨rfl, rfl⟩

/-- An outcome takes the write that it belongs to out of the pending half. -/
theorem settle_pendingPart (s : Settlement) :
    (h.settle s).overlay.pendingPart = (h.overlay.forget s.write.pending).pendingPart :=
  Overlay.pendingPart_congr fun n => by rw [settle_get?_pending, Overlay.get?_forget]

end Holding

/-! ## The invariant -/

namespace Desk

variable {d o : Desk} {n : Nat} {name : Nat} {w : OpenWrite} {t : Turn} {ts : List Turn}

/-- What the writes under way show, the oldest first. -/
def pendingEdits (d : Desk) : List (WriteKey × Edit) := d.writes.filterMap (·.2.shown?)

/-- After `n` writes got numbers, the overlay shows those that are under way, and no
others that the server has not accepted. -/
structure Faithful (d : Desk) (n : Nat) : Prop where
  next : d.tab.overlay.nextPending.toNat = n
  numbered : ∀ x ∈ d.writes, ∀ key, x.2.pending = some key →
    (∃ i : UInt64, key = .pending i ∧ i.toNat < n) ∧ x.2.request.edit?.isSome
  shown : d.tab.overlay.pendingPart.toList = d.pendingEdits

theorem faithful_ofSnapshot (s : Snapshot) : (ofSnapshot s).Faithful 0 where
  next := rfl
  numbered x hx := by simp [ofSnapshot] at hx
  shown := rfl

theorem Faithful.number_lt (hf : d.Faithful n) {x : WriteKey × Edit} (hx : x ∈ d.pendingEdits) :
    ∃ i : UInt64, x.1 = .pending i ∧ i.toNat < n := by
  obtain ⟨⟨name, w⟩, hmem, hs⟩ := List.mem_filterMap.1 hx
  obtain ⟨key, hkey, hs⟩ := Option.bind_eq_some_iff.1 hs
  obtain ⟨e, he, rfl⟩ := Option.map_eq_some_iff.1 hs
  exact (hf.numbered _ hmem key hkey).1

theorem Faithful.heeded (hf : d.Faithful n) (hh : o.tab.holding = d.tab.holding.heed t)
    (hws : o.writes = d.writes) : o.Faithful n := by
  obtain ⟨hpart, hnext⟩ := d.tab.holding.heed_pendingPart t
  rw [← hh] at hpart hnext
  refine ⟨?_, by rw [hws]; exact hf.numbered, ?_⟩
  · exact (congrArg UInt64.toNat hnext).trans hf.next
  · rw [pendingEdits, hws]
    exact (congrArg KeyedMap.toList hpart).trans hf.shown

theorem Faithful.settled (hf : d.Faithful n) (hw : d.write? name = some w)
    {outcome : Except WriteFault WriteReply}
    (hh : o.tab.holding = d.tab.holding.settle ⟨w, outcome⟩)
    (hws : o.writes = d.writes.eraseP (·.1 = name)) : o.Faithful n := by
  obtain ⟨before, after, hsplit, hrest⟩ := writes_split hw
  have hedits : d.pendingEdits =
      before.filterMap (·.2.shown?) ++ (w.shown?.toList ++ after.filterMap (·.2.shown?)) := by
    rw [pendingEdits, hsplit, List.filterMap_append, List.filterMap_cons]
    cases w.shown? <;> rfl
  have hpart : o.tab.overlay.pendingPart = (d.tab.overlay.forget w.pending).pendingPart :=
    (congrArg (·.overlay.pendingPart) hh).trans (Holding.settle_pendingPart ..)
  refine ⟨?_, fun x hx => ?_, ?_⟩
  · rw [← hf.next]
    exact congrArg UInt64.toNat
      ((congrArg (·.overlay.nextPending) hh).trans (Holding.settle_nextPending ..))
  · rw [hws] at hx
    exact hf.numbered x (List.mem_of_mem_eraseP hx)
  · rw [hpart, pendingEdits, hws, hrest, List.filterMap_append]
    have hshown := hf.shown
    rw [hedits] at hshown
    cases hp : w.pending with
    | none =>
      have hnone : w.shown? = none := by simp [OpenWrite.shown?, hp]
      rwa [hnone] at hshown
    | some key =>
      obtain ⟨e, he⟩ := Option.isSome_iff_exists.1
        (hf.numbered (name, w) (by simp [hsplit]) key hp).2
      have hone : w.shown? = some (key, e) := by simp [OpenWrite.shown?, hp, he]
      rw [hone] at hshown
      rw [Overlay.forget, Overlay.erase_pendingPart]
      exact KeyedMap.toList_erase_middle hshown

/-- The number that is given next is above all others. -/
theorem Faithful.lt_nextPending (hf : d.Faithful n) :
    ∀ x ∈ d.tab.overlay.pendingPart.toList,
      compare x.1 (.pending d.tab.overlay.nextPending) = .lt := by
  intro x hx
  rw [hf.shown] at hx
  obtain ⟨i, hi, hlt⟩ := hf.number_lt hx
  rw [hi]
  change compare i d.tab.overlay.nextPending = .lt
  rw [← hf.next, ← UInt64.lt_iff_toNat_lt] at hlt
  exact Std.compare_eq_lt.2 hlt

theorem Faithful.added (hf : d.Faithful n) (hn : n + 1 < 2 ^ 64) {request : WriteRequest}
    {e : Edit} (he : request.edit? = some e)
    (hh : o.tab.holding = ⟨d.tab.replica, (d.tab.overlay.addPending e).1⟩)
    (hws : o.writes =
      d.writes ++ [(name, ⟨request, some (.pending d.tab.overlay.nextPending)⟩)]) :
    o.Faithful (n + 1) := by
  have hoverlay : o.tab.overlay = (d.tab.overlay.addPending e).1 := congrArg Holding.overlay hh
  refine ⟨?_, fun x hx key hkey => ?_, ?_⟩
  · rw [hoverlay]
    change (d.tab.overlay.nextPending + 1).toNat = n + 1
    rw [UInt64.toNat_add, hf.next, UInt64.toNat_one, Nat.mod_eq_of_lt hn]
  · rw [hws, List.mem_append, List.mem_singleton] at hx
    rcases hx with hx | rfl
    · obtain ⟨⟨i, hi, hlt⟩, hedit⟩ := hf.numbered x hx key hkey
      exact ⟨⟨i, hi, by omega⟩, hedit⟩
    · obtain rfl := Option.some.inj hkey
      exact ⟨⟨_, rfl, by rw [hf.next]; omega⟩, by simp [he]⟩
  · -- The new number is the largest, so the new edit stands last.
    rw [hoverlay, Overlay.addPending_pendingPart,
      KeyedMap.toList_insert_last e hf.lt_nextPending, hf.shown, pendingEdits, pendingEdits, hws,
      List.filterMap_append]
    simp [OpenWrite.shown?, he]

theorem Faithful.asked (hf : d.Faithful n) {request : WriteRequest}
    (hh : o.tab.holding = d.tab.holding) (hws : o.writes = d.writes ++ [(name, ⟨request, none⟩)]) :
    o.Faithful n := by
  have hoverlay : o.tab.overlay = d.tab.overlay := congrArg Holding.overlay hh
  refine ⟨by rw [hoverlay]; exact hf.next, fun x hx key hkey => ?_, ?_⟩
  · rw [hws, List.mem_append, List.mem_singleton] at hx
    rcases hx with hx | rfl
    · exact hf.numbered x hx key hkey
    · simp at hkey
  · rw [hoverlay, hf.shown, pendingEdits, pendingEdits, hws, List.filterMap_append]
    simp [OpenWrite.shown?]

/-! ## The run -/

theorem Faithful.turn (hf : d.Faithful n) (t : Turn)
    (hn : n + (if t.isShownAtOnce then 1 else 0) < 2 ^ 64) :
    (d.turn t).Faithful (n + if t.isShownAtOnce then 1 else 0) := by
  cases d.turn_move t with
  | heeded hname hh hws =>
    have hhidden : t.isShownAtOnce = false := by
      cases t with
      | written name request optimistic => simp [Turn.name?] at hname
      | _ => rfl
    rw [hhidden]
    exact hf.heeded hh hws
  | shown name request e ht he hh hws =>
    have hshown : t.isShownAtOnce = true := by simp [ht, Turn.isShownAtOnce, he]
    rw [hshown, if_pos rfl] at hn ⊢
    exact hf.added hn he hh hws
  | asked name request optimistic _ hhidden hh hws =>
    rw [hhidden]
    exact hf.asked hh hws
  | settled name w outcome ht hw hh hws =>
    rw [ht] at hh hws ⊢
    exact hf.settled hw hh hws
  | unknown name outcome ht _ hsame =>
    rw [hsame, ht]
    exact hf

theorem Faithful.play (hf : d.Faithful n)
    (hn : n + ts.countP Turn.isShownAtOnce < 2 ^ 64) :
    (d.play ts).Faithful (n + ts.countP Turn.isShownAtOnce) := by
  induction ts generalizing d n with
  | nil => exact hf
  | cons t ts ih =>
    rw [List.countP_cons, Nat.add_comm (ts.countP _), ← Nat.add_assoc] at hn ⊢
    exact ih (hf.turn t (by omega)) hn

/-! ## The law -/

theorem Faithful.keys_eq (hf : d.Faithful n) :
    d.writes.filterMap (·.2.pending) = d.tab.overlay.pendingPart.keys := by
  rw [KeyedMap.keys, hf.shown, pendingEdits, List.map_filterMap]
  refine List.filterMap_congr fun x hx => ?_
  cases hp : x.2.pending with
  | none => simp [OpenWrite.shown?, hp]
  | some key =>
    obtain ⟨e, he⟩ := Option.isSome_iff_exists.1 (hf.numbered x hx key hp).2
    simp [OpenWrite.shown?, hp, he]

theorem Faithful.get?_pending (hf : d.Faithful n) {x : Nat × OpenWrite} (hx : x ∈ d.writes)
    {key : WriteKey} (hkey : x.2.pending = some key) :
    (d.tab.overlay.get? key).isSome ∧ d.tab.overlay.get? key = x.2.request.edit? := by
  obtain ⟨⟨i, rfl, -⟩, hedit⟩ := hf.numbered x hx key hkey
  obtain ⟨e, he⟩ := Option.isSome_iff_exists.1 hedit
  have hmem : (.pending i, e) ∈ d.tab.overlay.pendingPart.toList := by
    rw [hf.shown]
    exact List.mem_filterMap.2 ⟨x, hx, by simp [OpenWrite.shown?, hkey, he]⟩
  rw [← KeyedMap.get?_eq_some_iff, Overlay.get?_pendingPart] at hmem
  exact ⟨by rw [hmem]; rfl, by rw [hmem, he]⟩

/-- Whatever comes in whatever order, the overlay shows under the tab's own numbers
just the writes that are under way, each under a number of its own and as its own
edit. Neither the stream nor what the server accepted touches them. -/
theorem the_pending_half_is_the_writes_under_way (s : Snapshot)
    (hfew : ts.countP Turn.isShownAtOnce < 2 ^ 64) :
    let d := (ofSnapshot s).play ts
    let keys := d.writes.filterMap (·.2.pending)
    keys.Nodup ∧ (∀ key ∈ keys, key.isPending) ∧
    (∀ i, (d.tab.overlay.get? (.pending i)).isSome ↔ .pending i ∈ keys) ∧
    (∀ x ∈ d.writes, ∀ key, x.2.pending = some key →
      (d.tab.overlay.get? key).isSome ∧ d.tab.overlay.get? key = x.2.request.edit?) ∧
    d.tab.overlay.pendingCount = keys.length ∧
    ∀ i, (∀ e, (d.tab.sync e).1.overlay.get? (.pending i) = d.tab.overlay.get? (.pending i)) ∧
      (∀ c e w, (d.tab.overlay.confirm c e w).1.get? (.pending i) =
        d.tab.overlay.get? (.pending i)) ∧
      ∀ w, (d.tab.overlay.pruneThrough w).1.get? (.pending i) =
        d.tab.overlay.get? (.pending i) := by
  intro d keys
  have hf : d.Faithful (0 + ts.countP Turn.isShownAtOnce) :=
    (faithful_ofSnapshot s).play (by omega)
  have hkeys : keys = d.tab.overlay.pendingPart.keys := hf.keys_eq
  refine ⟨?_, fun key hkey => ?_, fun i => ?_, fun x hx key hkey => hf.get?_pending hx hkey, ?_,
    fun i => ⟨fun e => ?_, fun c e w => ?_, fun w => ?_⟩⟩
  · rw [hkeys]
    exact KeyedMap.keys_nodup _
  · obtain ⟨x, hx, hp⟩ := List.mem_filterMap.1 hkey
    obtain ⟨⟨i, rfl, -⟩, -⟩ := hf.numbered x hx key hp
    rfl
  · rw [hkeys, KeyedMap.mem_keys, Overlay.get?_pendingPart]
  · rw [hkeys, KeyedMap.keys, List.length_map]
    rfl
  · exact (congrArg (·.overlay.get? (.pending i)) (d.tab.sync_holding e)).trans
      (d.tab.holding.sync_get?_pending e i)
  · rw [Overlay.get?_confirm, if_neg (by simp)]
  · rw [Overlay.get?_pruneThrough]
    rfl

/-- Two writes are shown at once and one is not. The server makes the very last
change of the first, and its event comes while the tab is far behind. -/
def busyDay : List Turn :=
  [.written 1 (.updatePuzzle ⟨1⟩ { name := some "Whale" }) true,
    .written 2 (.deletePuzzle ⟨2⟩) true, .written 3 (.deleteRound ⟨3⟩) false,
    .settled 1 (.ok { changeId := .last }), .heard (.sync ⟨.last, .deletePuzzle ⟨1⟩⟩)]

theorem busyDay_leaves_one_pending :
    busyDay.countP Turn.isShownAtOnce < 2 ^ 64 ∧
    let d := (ofSnapshot .empty).play busyDay
    d.writes.filterMap (·.2.pending) = [.pending 1] ∧ d.tab.overlay.pendingCount = 1 ∧
    d.tab.overlay.get? (.pending 1) = some (.deletePuzzle ⟨2⟩) := by
  have hkeys : ((ofSnapshot .empty).play busyDay).writes.filterMap (·.2.pending) =
      [.pending 1] := by decide
  have hmem : (2, ⟨.deletePuzzle ⟨2⟩, some (.pending 1)⟩) ∈
      ((ofSnapshot .empty).play busyDay).writes := by decide
  obtain ⟨-, -, -, hown, hcount, -⟩ :=
    the_pending_half_is_the_writes_under_way .empty
      (show busyDay.countP Turn.isShownAtOnce < 2 ^ 64 by decide)
  rw [hkeys] at hcount
  exact ⟨by decide, hkeys, hcount, (hown _ hmem _ rfl).2⟩

end Desk

end HuntBoard
