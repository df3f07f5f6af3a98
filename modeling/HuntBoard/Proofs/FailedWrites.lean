-- A write that comes to nothing leaves no trace: the tab ends as it would have ended
-- without it, but for the numbers of the writes that came later.
import HuntBoard.Proofs.PendingWrites

namespace HuntBoard

/-! ## The server's part of what a tab holds -/

namespace Holding

/-- Two tabs hold the same of what the server said and accepted. -/
structure Alike (h h' : Holding) : Prop where
  replica : h.replica = h'.replica
  confirmed : ∀ c, h.overlay.get? (.confirmed c) = h'.overlay.get? (.confirmed c)

variable {h h' : Holding}

theorem Alike.refl (h : Holding) : Alike h h := ⟨rfl, fun _ => rfl⟩

theorem Alike.sync (ha : Alike h h') (e : SyncEvent) : Alike (h.sync e) (h'.sync e) := by
  unfold Holding.sync
  rw [ha.replica]
  dsimp only
  split <;>
    exact ⟨rfl, fun c => by simp only [Overlay.get?_pruneThrough, Overlay.get?_erase, ha.confirmed]⟩

theorem Alike.heed (ha : Alike h h') (t : Turn) : Alike (h.heed t) (h'.heed t) := by
  unfold Holding.heed
  split
  · exact ha.sync _
  · rename_i s
    exact ⟨congrArg (fun r : Replica => r.setSettings s) ha.replica, ha.confirmed⟩
  · exact ha

/-- The outcome of one write does the same to both, whatever number each knows it by. -/
theorem Alike.settle (ha : Alike h h') {w w' : OpenWrite} (hw : w.Numbered) (hw' : w'.Numbered)
    (hreq : w.request = w'.request) (outcome : Except WriteFault WriteReply) :
    Alike (h.settle ⟨w, outcome⟩) (h'.settle ⟨w', outcome⟩) where
  replica := by simp only [settle_replica, ha.replica]
  confirmed c := by
    have hshown : ∀ v,
        Settlement.shown? ⟨w, outcome⟩ v c = Settlement.shown? ⟨w', outcome⟩ v c := by
      intro v
      simp only [Settlement.shown?, Settlement.accepted?, hreq]
    rw [settle_get?_confirmed _ hw, settle_get?_confirmed _ hw', ha.replica, ha.confirmed, hshown]

/-- A write that came to nothing changes nothing here. -/
theorem Alike.settle_error (ha : Alike h h') {w : OpenWrite} (hw : w.Numbered) (f : WriteFault) :
    Alike (h.settle ⟨w, .error f⟩) h' where
  replica := (settle_replica ..).trans ha.replica
  confirmed c := by
    rw [settle_get?_confirmed _ hw, ha.confirmed]
    rfl

theorem Alike.addPending (ha : Alike h h') (e : Edit) :
    Alike ⟨h.replica, (h.overlay.addPending e).1⟩ ⟨h'.replica, (h'.overlay.addPending e).1⟩ where
  replica := ha.replica
  confirmed c := by
    rw [Overlay.get?_addPending_confirmed, Overlay.get?_addPending_confirmed, ha.confirmed]

/-- A write that is not accepted yet changes nothing here. -/
theorem Alike.addPending_left (ha : Alike h h') (e : Edit) :
    Alike ⟨h.replica, (h.overlay.addPending e).1⟩ h' where
  replica := ha.replica
  confirmed c := by rw [Overlay.get?_addPending_confirmed, ha.confirmed]

end Holding

/-! ## Other numbers -/

/-- The key that a write is known by if its number becomes another. -/
def WriteKey.renumber (f : UInt64 → UInt64) : WriteKey → WriteKey
  | confirmed c => confirmed c
  | pending n => pending (f n)

def OpenWrite.renumber (f : UInt64 → UInt64) (w : OpenWrite) : OpenWrite :=
  { w with pending := w.pending.map (WriteKey.renumber f) }

theorem OpenWrite.shown?_renumber (f : UInt64 → UInt64) (w : OpenWrite) :
    (w.renumber f).shown? = w.shown?.map fun x => (x.1.renumber f, x.2) := by
  obtain ⟨request, pending⟩ := w
  cases pending with
  | none => rfl
  | some key => cases he : request.edit? <;> simp [renumber, shown?, he]

/-- Numbers from `first` on move up by `shift`. -/
def movedUp (first shift : UInt64) (n : UInt64) : UInt64 := if n < first then n else n + shift

/-- Without overflow, numbers keep their order. -/
theorem movedUp_lt {first shift a b : UInt64} (hab : a < b)
    (hb : b.toNat + shift.toNat < 2 ^ 64) : movedUp first shift a < movedUp first shift b := by
  unfold movedUp
  rw [UInt64.lt_iff_toNat_lt] at hab ⊢
  have hadd : ∀ n : UInt64, n.toNat ≤ b.toNat → (n + shift).toNat = n.toNat + shift.toNat :=
    fun n hn => by rw [UInt64.toNat_add, Nat.mod_eq_of_lt (by omega)]
  split <;> split <;> simp only [UInt64.lt_iff_toNat_lt] at *
  · exact hab
  · rw [hadd b (Nat.le_refl _)]
    omega
  · omega
  · rw [hadd a (by omega), hadd b (Nat.le_refl _)]
    omega

/-! ## The invariant -/

namespace Desk

variable {d d' : Desk} {name : Nat} {first shift : UInt64} {n n' : Nat} {t : Turn} {ts : List Turn}

/-- But for one write, two desks stand alike; in the one that has it, the writes that
came after it have other numbers. -/
structure Spared (name : Nat) (first shift : UInt64) (d d' : Desk) : Prop where
  alike : d.tab.holding.Alike d'.tab.holding
  next : d.tab.overlay.nextPending.toNat = d'.tab.overlay.nextPending.toNat + shift.toNat
  first_le : first.toNat ≤ d'.tab.overlay.nextPending.toNat
  writes : d.writes.filter (·.1 ≠ name) =
    d'.writes.map fun x => (x.1, x.2.renumber (movedUp first shift))

theorem Spared.write? (hs : Spared name first shift d d') {other : Nat} (ho : other ≠ name) :
    d.write? other = (d'.write? other).map (·.renumber (movedUp first shift)) := by
  have hfind : d.writes.find? (·.1 = other) =
      (d.writes.filter (·.1 ≠ name)).find? (·.1 = other) := by
    rw [List.find?_filter]
    congr 1
    funext x
    by_cases hx : x.1 = other <;> simp [hx, ho]
  rw [Desk.write?, Desk.write?, hfind, hs.writes, List.find?_map]
  simp [Function.comp_def]

theorem Spared.eraseP (hs : Spared name first shift d d') {other : Nat} (ho : other ≠ name) :
    (d.writes.eraseP (·.1 = other)).filter (·.1 ≠ name) =
      (d'.writes.eraseP (·.1 = other)).map fun x =>
        (x.1, x.2.renumber (movedUp first shift)) := by
  have herase : (d.writes.eraseP (·.1 = other)).filter (·.1 ≠ name) =
      (d.writes.filter (·.1 ≠ name)).eraseP (·.1 = other) := by
    rw [List.eraseP_filter]
    congr 1
    congr 1
    funext x
    by_cases hx : x.1 = other <;> simp [hx, ho]
  rw [herase, hs.writes, List.eraseP_map]
  rfl

theorem Faithful.write_numbered (hf : d.Faithful n) {w : OpenWrite} (hw : d.write? name = some w) :
    w.Numbered := by
  intro key hkey
  obtain ⟨⟨i, hi, -⟩, -⟩ := hf.numbered _ (mem_of_write? hw) key hkey
  exact ⟨i, hi⟩

/-- Moving up later numbers leaves alone those that were given so far. -/
theorem Faithful.writes_unmoved (hf : d.Faithful n) (shift : UInt64) :
    (d.writes.map fun x => (x.1, x.2.renumber (movedUp d.tab.overlay.nextPending shift))) =
      d.writes := by
  refine (List.map_congr_left fun x hx => ?_).trans (List.map_id _)
  obtain ⟨name, request, pending⟩ := x
  cases pending with
  | none => rfl
  | some key =>
    obtain ⟨⟨i, rfl, hi⟩, -⟩ := hf.numbered _ hx key rfl
    rw [← hf.next, ← UInt64.lt_iff_toNat_lt] at hi
    simp [OpenWrite.renumber, WriteKey.renumber, movedUp, hi]

/-- The write is made at one of two desks that were the same. -/
theorem spared_written (hf : d.Faithful n) (name : Nat) (request : WriteRequest)
    (optimistic : Bool)
    (hn : n + (if (Turn.written name request optimistic).isShownAtOnce then 1 else 0) < 2 ^ 64)
    (hname : ∀ x ∈ d.writes, x.1 ≠ name) :
    ∃ first shift, Spared name first shift (d.turn (.written name request optimistic)) d := by
  have hkept : d.writes.filter (·.1 ≠ name) = d.writes :=
    List.filter_eq_self.2 fun x hx => by simpa using hname x hx
  have hnext := (hf.turn (.written name request optimistic) hn).next
  refine ⟨d.tab.overlay.nextPending, ?_⟩
  rcases d.turn_written name request optimistic with ⟨e, ho, he, hh, hws⟩ | ⟨hq, hh, hws⟩
  · have hone : (Turn.written name request optimistic).isShownAtOnce = true := by
      simp [Turn.isShownAtOnce, ho, he]
    refine ⟨1, ?_, ?_, Nat.le_refl _, ?_⟩
    · rw [hh]
      exact (Holding.Alike.refl d.tab.holding).addPending_left e
    · rw [hnext, hf.next, hone]
      rfl
    · rw [hws, List.filter_append, hkept, hf.writes_unmoved]
      simp
  · refine ⟨0, ?_, ?_, Nat.le_refl _, ?_⟩
    · rw [hh]
      exact .refl _
    · rw [hnext, hf.next, hq]
      rfl
    · rw [hws, List.filter_append, hkept, hf.writes_unmoved]
      simp

/-! ## What happens besides the write happens to both alike -/

theorem Spared.written (hs : Spared name first shift d d') (hf : d.Faithful n)
    (hf' : d'.Faithful n') {other : Nat} (ho : other ≠ name) (request : WriteRequest)
    (optimistic : Bool)
    (hn : n + (if (Turn.written other request optimistic).isShownAtOnce then 1 else 0) < 2 ^ 64) :
    Spared name first shift (d.turn (.written other request optimistic))
      (d'.turn (.written other request optimistic)) := by
  have hcount : n = n' + shift.toNat := by rw [← hf.next, ← hf'.next, hs.next]
  have hfirst := hs.first_le
  have hnext := (hf.turn (.written other request optimistic) hn).next
  have hnext' := (hf'.turn (.written other request optimistic) (by omega)).next
  rw [hf'.next] at hfirst
  have hmoved : movedUp first shift d'.tab.overlay.nextPending = d.tab.overlay.nextPending := by
    have hge : ¬ d'.tab.overlay.nextPending < first := by
      rw [UInt64.lt_iff_toNat_lt, hf'.next]
      omega
    rw [movedUp, if_neg hge, ← UInt64.toNat_inj, UInt64.toNat_add, ← hs.next, Nat.mod_eq_of_lt]
    exact UInt64.toNat_lt _
  rcases d.turn_written other request optimistic with ⟨e, hopt, he, hh, hws⟩ | ⟨hq, hh, hws⟩ <;>
    rcases d'.turn_written other request optimistic with
      ⟨e', hopt', he', hh', hws'⟩ | ⟨hq', hh', hws'⟩
  · obtain rfl : e = e' := Option.some.inj (he.symm.trans he')
    refine ⟨?_, by omega, by omega, ?_⟩
    · rw [hh, hh']
      exact hs.alike.addPending e
    · rw [hws, hws', List.filter_append, List.map_append, hs.writes]
      simp [ho, OpenWrite.renumber, WriteKey.renumber, hmoved]
  · simp [Turn.isShownAtOnce, hopt, he] at hq'
  · simp [Turn.isShownAtOnce, hopt', he'] at hq
  · refine ⟨?_, by omega, by omega, ?_⟩
    · rw [hh, hh']
      exact hs.alike
    · rw [hws, hws', List.filter_append, List.map_append, hs.writes]
      simp [ho, OpenWrite.renumber]

theorem Spared.settled (hs : Spared name first shift d d') (hf : d.Faithful n)
    (hf' : d'.Faithful n') {other : Nat} (ho : other ≠ name)
    (outcome : Except WriteFault WriteReply) :
    Spared name first shift (d.turn (.settled other outcome))
      (d'.turn (.settled other outcome)) := by
  have hw := hs.write? ho
  cases hw' : d'.write? other with
  | none =>
    rw [hw'] at hw
    rwa [turn_settled_of_none hw, turn_settled_of_none hw']
  | some w =>
    rw [hw'] at hw
    obtain ⟨hh, hws⟩ := d.turn_settled hw outcome
    obtain ⟨hh', hws'⟩ := d'.turn_settled hw' outcome
    have hsame := congrArg (·.overlay.nextPending.toNat) hh
    have hsame' := congrArg (·.overlay.nextPending.toNat) hh'
    simp only [Tab.holding, Holding.settle_nextPending] at hsame hsame'
    refine ⟨?_, ?_, ?_, ?_⟩
    · rw [hh, hh']
      exact hs.alike.settle (hf.write_numbered hw) (hf'.write_numbered hw') rfl outcome
    · rw [hsame, hsame', hs.next]
    · rw [hsame']
      exact hs.first_le
    · rw [hws, hws', hs.eraseP ho]

theorem Spared.nameless (hs : Spared name first shift d d') (ht : t.name? = none) :
    Spared name first shift (d.turn t) (d'.turn t) := by
  obtain ⟨hh, hws⟩ := turn_of_nameless (d := d) ht
  obtain ⟨hh', hws'⟩ := turn_of_nameless (d := d') ht
  have hsame := congrArg (·.overlay.nextPending.toNat) hh
  have hsame' := congrArg (·.overlay.nextPending.toNat) hh'
  simp only [Tab.holding, (Holding.heed_pendingPart _ t).2] at hsame hsame'
  refine ⟨?_, ?_, ?_, by rw [hws, hws', hs.writes]⟩
  · rw [hh, hh']
    exact hs.alike.heed t
  · rw [hsame, hsame', hs.next]
  · rw [hsame']
    exact hs.first_le

theorem Spared.turn (hs : Spared name first shift d d') (hf : d.Faithful n) (hf' : d'.Faithful n')
    (ht : t.name? ≠ some name) (hn : n + (if t.isShownAtOnce then 1 else 0) < 2 ^ 64) :
    Spared name first shift (d.turn t) (d'.turn t) := by
  have hother : ∀ other, t.name? = some other → other ≠ name := fun other h ho => ht (ho ▸ h)
  cases t with
  | written other request optimistic => exact hs.written hf hf' (hother _ rfl) request optimistic hn
  | settled other outcome => exact hs.settled hf hf' (hother _ rfl) outcome
  | _ => exact hs.nameless rfl

theorem Spared.play (hs : Spared name first shift d d') (hf : d.Faithful n) (hf' : d'.Faithful n')
    (hts : ∀ t ∈ ts, t.name? ≠ some name) (hn : n + ts.countP Turn.isShownAtOnce < 2 ^ 64) :
    Spared name first shift (d.play ts) (d'.play ts) := by
  induction ts generalizing d d' n n' with
  | nil => exact hs
  | cons t ts ih =>
    rw [List.forall_mem_cons] at hts
    rw [List.countP_cons] at hn
    have hcount : n = n' + shift.toNat := by rw [← hf.next, ← hf'.next, hs.next]
    exact ih (hs.turn hf hf' hts.1 (by omega)) (hf.turn t (by omega)) (hf'.turn t (by omega))
      hts.2 (by omega)

/-! ## The write itself -/

/-- The writes of other names leave those of this name alone. -/
theorem own_turn (d : Desk) (ht : t.name? ≠ some name) :
    (d.turn t).writes.filter (·.1 = name) = d.writes.filter (·.1 = name) := by
  have hother : ∀ other, t.name? = some other → other ≠ name := fun other h ho => ht (ho ▸ h)
  cases d.turn_move t with
  | heeded _ _ hws => rw [hws]
  | shown other request e hturn _ _ hws => simp [hws, hother other (by rw [hturn]; rfl)]
  | asked other request optimistic hturn _ _ hws =>
    simp [hws, hother other (by rw [hturn]; rfl)]
  | settled other w outcome hturn hw _ hws =>
    obtain ⟨before, after, hsplit, hrest⟩ := writes_split hw
    rw [hws, hrest, hsplit]
    simp [hother other (by rw [hturn]; rfl)]
  | unknown other outcome _ _ hsame => rw [hsame]

theorem own_play (d : Desk) (hts : ∀ t ∈ ts, t.name? ≠ some name) :
    (d.play ts).writes.filter (·.1 = name) = d.writes.filter (·.1 = name) := by
  induction ts generalizing d with
  | nil => rfl
  | cons t ts ih =>
    rw [List.forall_mem_cons] at hts
    rw [play_cons, ih (d.turn t) hts.2, own_turn d hts.1]

/-- When the only write of a name settles, none of that name is left. -/
theorem own_settled {x : Nat × OpenWrite} (hone : d.writes.filter (·.1 = name) = [x])
    (outcome : Except WriteFault WriteReply) :
    ∃ w, d.write? name = some w ∧
      (d.turn (.settled name outcome)).writes.filter (·.1 = name) = [] := by
  cases hw : d.write? name with
  | none =>
    have hx : x ∈ d.writes.filter (·.1 = name) := by simp [hone]
    have hfind : d.writes.find? (·.1 = name) = none := Option.map_eq_none_iff.1 hw
    simpa [List.mem_filter.1 hx] using List.find?_eq_none.1 hfind x (List.mem_filter.1 hx).1
  | some w =>
    obtain ⟨before, after, hsplit, hrest⟩ := writes_split hw
    refine ⟨w, rfl, ?_⟩
    rw [(d.turn_settled hw outcome).2, hrest, List.filter_append]
    rw [hsplit, List.filter_append, List.filter_cons_of_pos (by simp), List.append_eq_singleton_iff]
      at hone
    rcases hone with ⟨hbefore, hafter⟩ | ⟨_, hafter⟩
    · rw [hbefore, (List.cons.inj hafter).2]
      rfl
    · simp at hafter

theorem Spared.settled_own (hs : Spared name first shift d d') (hf : d.Faithful n)
    {w : OpenWrite} (hw : d.write? name = some w) (f : WriteFault) :
    Spared name first shift (d.turn (.settled name (.error f))) d' := by
  obtain ⟨hh, hws⟩ := d.turn_settled hw (.error f)
  obtain ⟨before, after, hsplit, hrest⟩ := writes_split hw
  have hsame := congrArg (·.overlay.nextPending.toNat) hh
  simp only [Tab.holding, Holding.settle_nextPending] at hsame
  refine ⟨?_, hsame.trans hs.next, hs.first_le, ?_⟩
  · rw [hh]
    exact hs.alike.settle_error (hf.write_numbered hw) f
  · rw [hws, hrest, ← hs.writes, hsplit]
    simp

/-! ## The law -/

/-- Once the write is gone, the overlays show the same, but for the later numbers. -/
theorem Spared.toList_eq (hs : Spared name first shift d d') (hf : d.Faithful n)
    (hf' : d'.Faithful n') (hown : d.writes.filter (·.1 = name) = []) :
    d.tab.overlay.toList =
      d'.tab.overlay.toList.map fun x => (x.1.renumber (movedUp first shift), x.2) := by
  have hwrites : d.writes = d'.writes.map fun x => (x.1, x.2.renumber (movedUp first shift)) := by
    rw [← hs.writes]
    refine (List.filter_eq_self.2 fun x hx => ?_).symm
    simpa using List.filter_eq_nil_iff.1 hown x hx
  have hpending : d.pendingEdits =
      d'.pendingEdits.map fun x => (x.1.renumber (movedUp first shift), x.2) := by
    rw [pendingEdits, hwrites, List.filterMap_map, pendingEdits, List.map_filterMap]
    exact List.filterMap_congr fun x _ => x.2.shown?_renumber _
  have hconfirmed : d'.tab.overlay.confirmedPart.toList =
      d'.tab.overlay.confirmedPart.toList.map
        fun x => (x.1.renumber (movedUp first shift), x.2) := by
    refine (List.map_id _).symm.trans (List.map_congr_left fun x hx => ?_)
    obtain ⟨key, e⟩ := x
    cases key with
    | confirmed c => rfl
    | pending i => exact absurd (List.mem_filter.1 hx).2 (by simp [WriteKey.isPending])
  have hsame : d.tab.overlay.confirmedPart = d'.tab.overlay.confirmedPart :=
    Overlay.confirmedPart_congr hs.alike.confirmed
  rw [Overlay.toList_eq_halves, Overlay.toList_eq_halves, List.map_append, ← hconfirmed, hf.shown,
    hf'.shown, ← hpending, hsame]

theorem Faithful.key_lt (hf : d.Faithful n) {i : UInt64}
    (hi : .pending i ∈ d.tab.overlay.edits.keys) : i.toNat < n := by
  rw [KeyedMap.mem_keys] at hi
  obtain ⟨e, he⟩ := Option.isSome_iff_exists.1 hi
  have hmem : (.pending i, e) ∈ d.pendingEdits := by
    rw [← hf.shown, ← KeyedMap.get?_eq_some_iff, Overlay.get?_pendingPart]
    exact he
  obtain ⟨j, hj, hlt⟩ := hf.number_lt hmem
  obtain rfl : i = j := by simpa using hj
  exact hlt

/-- The desk with the write, from the time it is made until all is over, and the desk
without it. -/
theorem spared_failed (hf : d.Faithful n) {between after : List Turn} (request : WriteRequest)
    (optimistic : Bool) (f : WriteFault) (hnone : d.writes.filter (·.1 = name) = [])
    (hbetween : ∀ t ∈ between, t.name? ≠ some name) (hafter : ∀ t ∈ after, t.name? ≠ some name)
    (hn : n + (Turn.written name request optimistic ::
      (between ++ .settled name (.error f) :: after)).countP Turn.isShownAtOnce < 2 ^ 64) :
    let whole := d.play (.written name request optimistic ::
      (between ++ .settled name (.error f) :: after))
    whole.writes.filter (·.1 = name) = [] ∧
    ∃ first shift, Spared name first shift whole (d.play (between ++ after)) := by
  simp only [List.countP_cons, List.countP_append] at hn
  let made := d.turn (.written name request optimistic)
  have hmade := hf.turn (.written name request optimistic) (by omega)
  have hbusy : (made.play between).Faithful _ := hmade.play (by omega)
  have hone : ∃ x, (made.play between).writes.filter (·.1 = name) = [x] := by
    rw [own_play made hbetween]
    rcases d.turn_written name request optimistic with ⟨_, _, _, _, hws⟩ | ⟨_, _, hws⟩ <;>
      simp [made, hws, hnone]
  obtain ⟨x, hx⟩ := hone
  obtain ⟨w, hw, hgone⟩ := own_settled hx (.error f)
  obtain ⟨first, shift, hs⟩ := spared_written hf name request optimistic (by omega)
    fun x hx => by simpa using List.filter_eq_nil_iff.1 hnone x hx
  have hsettled := (hs.play hmade hf hbetween (by omega)).settled_own hbusy hw f
  have hplain : (d.play between).Faithful _ := hf.play (by omega)
  have hend := hsettled.play (hbusy.turn (.settled name (.error f)) (by omega)) hplain hafter
    (by omega)
  rw [play_cons, play_append, play_cons, play_append]
  exact ⟨(own_play _ hafter).trans hgone, first, shift, hend⟩

/-- A write that settles with a fault might as well not have been made, whatever
comes before it, meanwhile and later: the copy of the server's state is the same, all
that is shown is the same, and so is the overlay but for the numbers of other writes,
which keep their order. -/
theorem a_failed_write_leaves_no_trace (s : Snapshot) {before between after : List Turn}
    {request : WriteRequest} {optimistic : Bool} {f : WriteFault}
    (hother : ∀ t ∈ before ++ (between ++ after), t.name? ≠ some name)
    (hfew : (before ++ .written name request optimistic ::
      (between ++ .settled name (.error f) :: after)).countP Turn.isShownAtOnce < 2 ^ 64) :
    let d := (ofSnapshot s).play (before ++ .written name request optimistic ::
      (between ++ .settled name (.error f) :: after))
    let d' := (ofSnapshot s).play (before ++ (between ++ after))
    d.tab.replica = d'.tab.replica ∧ d.tab.shown = d'.tab.shown ∧
    ∃ number : UInt64 → UInt64,
      (∀ i j, .pending i ∈ d'.tab.overlay.edits.keys → .pending j ∈ d'.tab.overlay.edits.keys →
        i < j → number i < number j) ∧
      d.tab.overlay.toList = d'.tab.overlay.toList.map fun x => (x.1.renumber number, x.2) := by
  intro d d'
  rw [List.forall_mem_append, List.forall_mem_append] at hother
  obtain ⟨hbefore, hbetween, hafter⟩ := hother
  have hfd : d.Faithful _ := (faithful_ofSnapshot s).play (by rwa [Nat.zero_add])
  simp only [List.countP_append, List.countP_cons] at hfew
  have hfd' : d'.Faithful _ := (faithful_ofSnapshot s).play (by
    simp only [List.countP_append]
    omega)
  have hstart : ((ofSnapshot s).play before).Faithful _ :=
    (faithful_ofSnapshot s).play (by omega)
  have hspared := spared_failed hstart request optimistic f (own_play _ hbefore) hbetween hafter
    (by simp only [List.countP_append, List.countP_cons]; omega)
  rw [← play_append, ← play_append] at hspared
  obtain ⟨hown, first, shift, hs⟩ := hspared
  have hlist : d.tab.overlay.toList = _ := hs.toList_eq hfd hfd' hown
  have hreplica : d.tab.replica = d'.tab.replica := hs.alike.replica
  refine ⟨hreplica, ?_, movedUp first shift, fun i j _ hj hij => ?_, hlist⟩
  · have hedits : d.tab.overlay.toList.map (·.2) = d'.tab.overlay.toList.map (·.2) := by
      rw [hlist, List.map_map]
      rfl
    simp only [Tab.shown, Replica.shown, Entities.under, hedits, hreplica]
  · have hlt := hfd'.key_lt hj
    have hnext : d.tab.overlay.nextPending.toNat = _ := hs.next
    have hbound := d.tab.overlay.nextPending.toNat_lt
    rw [hfd'.next] at hnext
    exact movedUp_lt hij (by omega)

/-- A puzzle gets a new name, which is shown at once. -/
def earlier : List Turn := [.written 1 (.updatePuzzle ⟨1⟩ { name := some "Whale" }) true]

/-- Another write is made, and the server accepts the new name. -/
def meanwhile : List Turn :=
  [.written 3 (.deleteRound ⟨3⟩) true, .settled 1 (.ok { changeId := ⟨5⟩ })]

def later : List Turn :=
  [.heard (.sync ⟨⟨1⟩, .upsertPuzzle { id := ⟨1⟩, name := "Fish", round := ⟨2⟩ }⟩)]

/-- But for a deletion that was given up, the write that is still under way would
have had the number before its own. -/
theorem a_given_up_deletion_leaves_no_trace :
    let d := (ofSnapshot .empty).play (earlier ++ .written 2 (.deletePuzzle ⟨2⟩) true ::
      (meanwhile ++ .settled 2 (.error .aborted) :: later))
    let d' := (ofSnapshot .empty).play (earlier ++ (meanwhile ++ later))
    d.tab.replica = d'.tab.replica ∧ d.tab.shown = d'.tab.shown ∧
    d.tab.overlay.edits.keys = [.confirmed ⟨5⟩, .pending 2] ∧
    d'.tab.overlay.edits.keys = [.confirmed ⟨5⟩, .pending 1] := by
  have hother : ∀ t ∈ earlier ++ (meanwhile ++ later), t.name? ≠ some 2 := by
    simp [earlier, meanwhile, later, Turn.name?]
  have hfew : (earlier ++ .written 2 (.deletePuzzle ⟨2⟩) true ::
      (meanwhile ++ .settled 2 (.error .aborted) :: later)).countP Turn.isShownAtOnce < 2 ^ 64 := by
    decide
  obtain ⟨hreplica, hshown, -⟩ := a_failed_write_leaves_no_trace .empty hother hfew
  exact ⟨hreplica, hshown, by decide, by decide⟩

end Desk

end HuntBoard
