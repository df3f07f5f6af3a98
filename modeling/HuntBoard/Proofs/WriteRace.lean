-- The race between the outcome of a write and its event on the stream: whichever
-- comes first, a tab ends with the same copy of the server's state and the same
-- writes on top of it.
import HuntBoard.Proofs.OpenWrites
import HuntBoard.Proofs.Overlay
import Mathlib.Data.List.Perm.Subperm

namespace HuntBoard

/-! ## Outcomes -/

/-- A write and its outcome. -/
structure Settlement where
  write : OpenWrite
  outcome : Except WriteFault WriteReply

namespace Settlement

variable (s : Settlement) (w c : ChangeId)

/-- The outcome as the tab gets it. -/
def input : TabInput := .settled s.write s.outcome

/-- The change that the server made of the write. -/
def changeId? : Option ChangeId := s.outcome.toOption.map (·.changeId)

/-- What the server accepted, as far as it can be shown. -/
def accepted? : Option (ChangeId × Edit) :=
  s.outcome.toOption.bind fun reply => (reply.edit? s.write.request).map (reply.changeId, ·)

/-- What is shown under a change once the outcome is there, if the server's state
has come as far as a watermark. -/
def shown? : Option Edit :=
  s.accepted?.bind fun (c', e) => if c = c' ∧ ¬ c' ≤ w then some e else none

/-- Nothing is shown of what the server's state holds. -/
theorem shown?_of_le {s : Settlement} {w c : ChangeId} (h : c ≤ w) : s.shown? w c = none := by
  unfold shown?
  cases s.accepted? with
  | none => rfl
  | some p =>
    refine if_neg ?_
    rintro ⟨rfl, hc⟩
    exact hc h

/-- Beyond two watermarks the same is shown. -/
theorem shown?_of_not_le {s : Settlement} {w w' c : ChangeId} (h : ¬ c ≤ w) (h' : ¬ c ≤ w') :
    s.shown? w c = s.shown? w' c := by
  unfold shown?
  cases s.accepted? with
  | none => rfl
  | some p =>
    dsimp only [Option.bind_some]
    by_cases hc : c = p.1
    · subst hc
      rw [if_pos ⟨rfl, h⟩, if_pos ⟨rfl, h'⟩]
    · rw [if_neg fun hp => hc hp.1, if_neg fun hp => hc hp.1]

theorem changeId?_of_shown? {s : Settlement} {w c : ChangeId} {e : Edit}
    (h : s.shown? w c = some e) : s.changeId? = some c := by
  obtain ⟨write, outcome⟩ := s
  cases outcome with
  | error f => simp [shown?, accepted?, Except.toOption] at h
  | ok reply =>
    obtain ⟨⟨c', e'⟩, ha, hc⟩ := Option.bind_eq_some_iff.1 h
    obtain ⟨_, _, ha⟩ := Option.map_eq_some_iff.1 ha
    obtain ⟨rfl, rfl⟩ := Prod.mk.inj ha
    dsimp only at hc
    split at hc
    · rename_i hp
      exact congrArg some hp.1.symm
    · simp at hc

/-- Of two writes that the server made different changes of, one at most is shown
under a change. -/
theorem shown?_eq_none_or {s s' : Settlement} (w c : ChangeId)
    (h : ∀ c, s.changeId? = some c → ∀ c', s'.changeId? = some c' → c ≠ c') :
    s.shown? w c = none ∨ s'.shown? w c = none := by
  cases hs : s.shown? w c with
  | none => exact Or.inl rfl
  | some e =>
    right
    cases hs' : s'.shown? w c with
    | none => rfl
    | some e' => exact absurd rfl (h c (changeId?_of_shown? hs) c (changeId?_of_shown? hs'))

end Settlement

/-! ## What the race is about -/

/-- What of a tab the stream and the outcomes of writes change. -/
@[ext]
structure Holding where
  replica : Replica
  overlay : Overlay

namespace Holding

/-- Take a change from the stream. -/
def sync (h : Holding) (e : SyncEvent) : Holding :=
  let overlay := h.overlay.erase (.confirmed e.changeId)
  match h.replica.apply e with
  | (replica, .changed) => ⟨replica, (overlay.pruneThrough replica.watermark).1⟩
  | (replica, _) => ⟨replica, overlay⟩

/-- Take the outcome of a write. -/
def settle (h : Holding) (s : Settlement) : Holding :=
  let overlay := h.overlay.forget s.write.pending
  match s.accepted? with
  | some (c, e) => ⟨h.replica, (overlay.confirm c e h.replica.watermark).1⟩
  | none => ⟨h.replica, overlay⟩

end Holding

namespace Tab

def holding (t : Tab) : Holding := ⟨t.replica, t.overlay⟩

theorem echo_overlay (t : Tab) (c : ChangeId) :
    (t.echo c).overlay = t.overlay.erase (.confirmed c) := by
  unfold echo
  dsimp only
  split
  · rfl
  · rename_i hnone
    rw [Overlay.erase_of_get?_none _ _ hnone]

theorem sync_holding (t : Tab) (e : SyncEvent) : (t.sync e).1.holding = t.holding.sync e := by
  have hr := (t.echo_frame e.changeId).1
  have ho := t.echo_overlay e.changeId
  unfold sync Holding.sync holding
  dsimp only
  rw [hr, ← ho]
  rcases t.replica.apply_cases e with ⟨_, h⟩ | ⟨_, _, h⟩ | ⟨_, _, h⟩ <;> rw [h] <;> dsimp only
  · rw [hr]
  · rw [(reload_frame _ _).1]
    exact congrArg (Holding.mk · _) hr

theorem forget_overlay (t : Tab) (w : OpenWrite) :
    (t.forget w).overlay = t.overlay.forget w.pending := by
  unfold forget
  cases w.pending <;> rfl

theorem confirm_overlay (t : Tab) (request : WriteRequest) (reply : WriteReply) :
    (t.confirm request reply).overlay =
      match reply.edit? request with
      | some e => (t.overlay.confirm reply.changeId e t.replica.watermark).1
      | none => t.overlay := by
  unfold confirm
  cases reply.edit? request with
  | none => rfl
  | some e =>
    unfold Overlay.confirm
    by_cases hc : reply.changeId ≤ t.replica.watermark <;> simp [hc]

theorem settled_holding (t : Tab) (s : Settlement) :
    (t.settled s.write s.outcome).1.holding = t.holding.settle s := by
  obtain ⟨w, outcome⟩ := s
  have hr := (t.forget_frame w).1
  have ho := t.forget_overlay w
  cases outcome with
  | error f =>
    have hsame : (t.settled w (.error f)).1.holding = (t.forget w).holding := by
      unfold settled
      dsimp only
      split
      · simp only [andThen_fst, (reload_frame _ _).1]
        rfl
      · rfl
    rw [hsame, holding, hr, ho]
    rfl
  | ok reply =>
    have hr' := ((t.forget w).confirm_frame w.request reply).1
    simp only [settled, holding, Holding.settle, Settlement.accepted?, Except.toOption,
      Option.bind_some, confirm_overlay, hr', hr, ho]
    cases reply.edit? w.request <;> rfl

end Tab

/-! ## One event and one outcome -/

namespace Holding

variable {h : Holding} {e : SyncEvent} {s s' : Settlement}

theorem settle_replica (h : Holding) (s : Settlement) : (h.settle s).replica = h.replica := by
  unfold settle
  dsimp only
  split <;> rfl

theorem settle_nextPending (h : Holding) (s : Settlement) :
    (h.settle s).overlay.nextPending = h.overlay.nextPending := by
  unfold settle
  cases s.accepted? with
  | none => exact Overlay.forget_nextPending ..
  | some p =>
    dsimp only
    rw [Overlay.confirm_nextPending, Overlay.forget_nextPending]

/-- The outcome takes away what was shown of the write under the tab's own number. -/
theorem settle_get?_pending (h : Holding) (s : Settlement) (n : UInt64) :
    (h.settle s).overlay.get? (.pending n) =
      if s.write.pending = some (.pending n) then none else h.overlay.get? (.pending n) := by
  unfold settle
  cases s.accepted? with
  | none => exact Overlay.get?_forget ..
  | some p =>
    dsimp only
    rw [Overlay.get?_confirm, if_neg (by simp), Overlay.get?_forget]

/-- The outcome puts what the server accepted over what was shown of the change. -/
theorem settle_get?_confirmed (h : Holding) (hs : s.write.Numbered) (c : ChangeId) :
    (h.settle s).overlay.get? (.confirmed c) =
      (s.shown? h.replica.watermark c).or (h.overlay.get? (.confirmed c)) := by
  have hpending : s.write.pending ≠ some (.confirmed c) := by
    intro hp
    obtain ⟨n, hn⟩ := hs _ hp
    simp at hn
  have hforget := h.overlay.get?_forget (.confirmed c) s.write.pending
  rw [if_neg hpending] at hforget
  unfold settle Settlement.shown?
  cases s.accepted? with
  | none => exact hforget
  | some p =>
    dsimp only [Option.bind_some]
    rw [Overlay.get?_confirm, hforget]
    simp only [WriteKey.confirmed.injEq]
    split <;> rfl

/-- An event that the replica holds already takes away what is shown of its own
change, and an outcome shows nothing of that either. -/
theorem sync_settle_of_stale (hs : s.write.Numbered) (hle : e.changeId ≤ h.replica.watermark)
    (ha : h.replica.apply e = (h.replica, .stale)) : (h.settle s).sync e = (h.sync e).settle s := by
  unfold sync
  rw [settle_replica, ha]
  refine Holding.ext ?_ (Overlay.ext_get? (fun k => ?_) ?_)
  · simp only [settle_replica]
  · cases k with
    | pending n => simp [Overlay.get?_erase, settle_get?_pending]
    | confirmed c =>
      simp only [Overlay.get?_erase, settle_get?_confirmed _ hs]
      by_cases hc : c = e.changeId
      · simp [hc, Settlement.shown?_of_le hle]
      · simp [hc]
  · simp only [settle_nextPending, Overlay.erase_nextPending]

/-- An event that the replica takes drops all that is shown of changes up to it, and
an outcome that comes later shows nothing of them. Of later changes it shows what it
would have shown before. -/
theorem sync_settle_of_changed {r : Replica} (hs : s.write.Numbered)
    (hlt : h.replica.watermark.number < e.changeId.number) (hr : r.watermark = e.changeId)
    (ha : h.replica.apply e = (r, .changed)) : (h.settle s).sync e = (h.sync e).settle s := by
  unfold sync
  rw [settle_replica, ha]
  refine Holding.ext ?_ (Overlay.ext_get? (fun k => ?_) ?_)
  · simp only [settle_replica]
  · cases k with
    | pending n =>
      simp [Overlay.get?_erase, Overlay.get?_pruneThrough, Overlay.outlives, settle_get?_pending]
    | confirmed c =>
      simp only [Overlay.get?_pruneThrough, Overlay.get?_erase, Overlay.outlives,
        settle_get?_confirmed _ hs, hr]
      by_cases hc : c ≤ e.changeId
      · simp [hc, Settlement.shown?_of_le hc]
      · have hne : c ≠ e.changeId := by
          rintro rfl
          exact hc (ChangeId.le_iff_number.2 (Nat.le_refl _))
        have hw : ¬ c ≤ h.replica.watermark := by
          rw [ChangeId.le_iff_number] at hc ⊢
          omega
        simp [hc, hne, Settlement.shown?_of_not_le hw hc]
  · simp only [settle_nextPending, Overlay.erase_nextPending, Overlay.pruneThrough_nextPending]

/-- An event that does not drift and an outcome may change places. A drift would
leave a write shown whose event came first, and hide one whose outcome did. -/
theorem sync_settle (hs : s.write.Numbered)
    (hd : ∀ expected got, (h.replica.apply e).2 ≠ .drift expected got) :
    (h.settle s).sync e = (h.sync e).settle s := by
  rcases h.replica.apply_cases e with ⟨hle, ha⟩ | ⟨_, _, ha⟩ | ⟨hlt, _, ha⟩
  · exact sync_settle_of_stale hs (ChangeId.le_iff_number.2 hle) ha
  · simp [ha] at hd
  · exact sync_settle_of_changed hs hlt rfl ha

/-- Two outcomes may change places, unless the server made the same change of both
writes. -/
theorem settle_settle (hs : s.write.Numbered) (hs' : s'.write.Numbered)
    (hne : ∀ c, s.changeId? = some c → ∀ c', s'.changeId? = some c' → c ≠ c') :
    (h.settle s).settle s' = (h.settle s').settle s := by
  refine Holding.ext ?_ (Overlay.ext_get? (fun k => ?_) ?_)
  · simp only [settle_replica]
  · cases k with
    | pending n =>
      simp only [settle_get?_pending]
      split <;> split <;> rfl
    | confirmed c =>
      simp only [settle_get?_confirmed _ hs, settle_get?_confirmed _ hs', settle_replica]
      rcases Settlement.shown?_eq_none_or h.replica.watermark c hne with hn | hn <;> simp [hn]
  · simp only [settle_nextPending]

end Holding

/-! ## Many events and many outcomes -/

namespace Replica

variable {r : Replica} {e : SyncEvent} {es : List SyncEvent}

/-- No event of a list skips others when a replica takes them in order. -/
def TakesAll (r : Replica) (es : List SyncEvent) : Prop :=
  ∀ expected got, (r.applyAll es).2 ≠ .drift expected got

theorem TakesAll.of_cons (h : r.TakesAll (e :: es)) :
    (∀ expected got, (r.apply e).2 ≠ .drift expected got) ∧ (r.apply e).1.TakesAll es := by
  unfold TakesAll applyAll at h
  generalize r.apply e = out at h ⊢
  obtain ⟨r', answer⟩ := out
  cases answer with
  | drift expected got => exact absurd rfl (h expected got)
  | stale => exact ⟨by simp, h⟩
  | changed =>
    refine ⟨by simp, fun expected got hd => h expected got ?_⟩
    dsimp only at hd ⊢
    generalize r'.applyAll es = all at hd ⊢
    obtain ⟨r'', answer⟩ := all
    obtain rfl : answer = .drift expected got := hd
    rfl

end Replica

namespace Holding

variable {h : Holding} {es : List SyncEvent} {s : Settlement}

theorem sync_replica (h : Holding) (e : SyncEvent) :
    (h.sync e).replica = (h.replica.apply e).1 := by
  unfold sync
  dsimp only
  split
  · rename_i ha
    rw [ha]
  · rename_i ha
    rw [ha]

/-- So an outcome may wait for a whole list of events. -/
theorem foldl_sync_settle (hs : s.write.Numbered) (hes : h.replica.TakesAll es) :
    es.foldl sync (h.settle s) = (es.foldl sync h).settle s := by
  induction es generalizing h with
  | nil => rfl
  | cons e es ih =>
    obtain ⟨hd, hes⟩ := hes.of_cons
    rw [← sync_replica] at hes
    rw [List.foldl_cons, List.foldl_cons, sync_settle hs hd, ih hes]

end Holding

/-- Inputs of a tab in which events, in their order, and outcomes, in theirs, come
between each other in some way. -/
inductive Race : List SyncEvent → List Settlement → List TabInput → Prop
  | nil : Race [] [] []
  | event {es : List SyncEvent} {ss : List Settlement} {is : List TabInput} (e : SyncEvent)
      (h : Race es ss is) : Race (e :: es) ss (.message (.sync e) :: is)
  | settled {es : List SyncEvent} {ss : List Settlement} {is : List TabInput} (s : Settlement)
      (h : Race es ss is) : Race es (s :: ss) (s.input :: is)

theorem race_outcomes_first (es : List SyncEvent) (ss : List Settlement) :
    Race es ss (ss.map (·.input) ++ es.map (.message ∘ .sync)) := by
  induction ss with
  | nil =>
    induction es with
    | nil => exact .nil
    | cons e es ih => exact .event e ih
  | cons s ss ih => exact .settled s ih

theorem race_events_first (es : List SyncEvent) (ss : List Settlement) :
    Race es ss (es.map (.message ∘ .sync) ++ ss.map (·.input)) := by
  induction es with
  | nil =>
    induction ss with
    | nil => exact .nil
    | cons s ss ih => exact .settled s ih
  | cons e es ih => exact .event e ih

/-- However a race goes, it goes as if all outcomes had come after all events. -/
theorem Race.holding {es : List SyncEvent} {ss : List Settlement} {is : List TabInput}
    (hr : Race es ss is) {t : Tab} (hes : t.replica.TakesAll es)
    (hss : ∀ s ∈ ss, s.write.Numbered) :
    (t.run is).1.holding = ss.foldl Holding.settle (es.foldl Holding.sync t.holding) := by
  induction hr generalizing t with
  | nil => rfl
  | event e _ ih =>
    have hes' := hes.of_cons.2
    have ht : (t.step (.message (.sync e))).1.holding = t.holding.sync e := t.sync_holding e
    have hreplica : (t.step (.message (.sync e))).1.replica = (t.replica.apply e).1 :=
      (t.step_heeds (.message (.sync e))).replica
    rw [← hreplica] at hes'
    rw [Tab.run_cons, Tab.andThen_fst, ih hes' hss, ht, List.foldl_cons]
  | settled s _ ih =>
    rw [List.forall_mem_cons] at hss
    -- The replica has not moved, so the events that are left do not drift for it either,
    -- and the outcome may wait for them.
    have ht : (t.step s.input).1.holding = t.holding.settle s := t.settled_holding s
    have hreplica : (t.step s.input).1.replica = t.replica := (t.step_heeds s.input).replica
    rw [Tab.run_cons, Tab.andThen_fst, ih (by rw [hreplica]; exact hes) hss.2, ht,
      Holding.foldl_sync_settle hss.1 hes, List.foldl_cons]

/-- Outcomes of different changes may come in any order. -/
theorem Holding.foldl_settle_perm {ss ss' : List Settlement} (hp : ss.Perm ss')
    (hss : ∀ s ∈ ss, s.write.Numbered) (hids : (ss.filterMap (·.changeId?)).Nodup) (h : Holding) :
    ss.foldl settle h = ss'.foldl settle h := by
  have hdistinct : ss.Pairwise fun s s' =>
      ∀ c, s.changeId? = some c → ∀ c', s'.changeId? = some c' → c ≠ c' :=
    List.pairwise_filterMap.1 hids
  have hswap : ss.Pairwise fun s s' =>
      ∀ h : Holding, (h.settle s).settle s' = (h.settle s').settle s :=
    hdistinct.imp_of_mem fun hs hs' hne h => settle_settle (hss _ hs) (hss _ hs') hne
  refine hp.foldl_eq' (fun s hs s' hs' h => ?_) h
  have hflip := hswap.imp fun hss' h => (hss' h).symm
  exact hswap.forall_of_forall_of_flip (fun s _ h => rfl) hflip hs hs' h

/-! ## The law -/

namespace Tab

/-- Some of the writes under way have their outcomes, while the stream goes on
without a gap for the tab. Whatever comes first, and whichever outcome comes
before another, the tab ends with the same copy of the server's state and the
same writes on top of it, if the server made a change of its own of each write. -/
theorem outcomes_may_race_the_stream {t : Tab} {ws : List OpenWrite} {es : List SyncEvent}
    {ss ss' : List Settlement} {is js : List TabInput} (ht : Reached t ws)
    (hes : t.replica.TakesAll es) (hopen : (ss.map (·.write)).Subperm ws)
    (hids : (ss.filterMap (·.changeId?)).Nodup) (hperm : ss.Perm ss')
    (his : Race es ss is) (hjs : Race es ss' js) :
    (t.run is).1.replica = (t.run js).1.replica ∧ (t.run is).1.overlay = (t.run js).1.overlay := by
  have hss : ∀ s ∈ ss, s.write.Numbered := fun s hs =>
    ht.numbered s.write (hopen.subset (List.mem_map_of_mem hs))
  have hss' : ∀ s ∈ ss', s.write.Numbered := fun s hs => hss s (hperm.mem_iff.2 hs)
  have hsame : (t.run is).1.holding = (t.run js).1.holding := by
    rw [his.holding hes hss, hjs.holding hes hss', Holding.foldl_settle_perm hperm hss hids]
  exact ⟨congrArg Holding.replica hsame, congrArg Holding.overlay hsame⟩

/-- A puzzle gets a new name, which is shown at once, and another is deleted. -/
def naming : OpenWrite := ⟨.updatePuzzle ⟨1⟩ { name := some "Whale" }, some (.pending 0)⟩

def deletion : OpenWrite := ⟨.deletePuzzle ⟨2⟩, none⟩

/-- A tab with these two writes under way. -/
def busy : Tab :=
  ((ofSnapshot .empty).run [.write naming.request true, .write deletion.request false]).1

theorem busy_reached : Reached busy [naming, deletion] :=
  .step (.step (.opened .empty) (.write naming.request true) (by simp))
    (.write deletion.request false) (by simp)

/-- The server makes change 2 of the first write, and does not know the session
any more when it comes to the second. -/
def outcomes : List Settlement :=
  [⟨naming, .ok { changeId := ⟨2⟩ }⟩, ⟨deletion, .error (.server .unauthorized)⟩]

def named : List SyncEvent :=
  [⟨⟨1⟩, .upsertPuzzle { id := ⟨1⟩, name := "Fish", round := ⟨2⟩ }⟩,
    ⟨⟨2⟩, .upsertPuzzle { id := ⟨1⟩, name := "Whale", round := ⟨2⟩ }⟩]

theorem busy_takesAll_named : busy.replica.TakesAll named := by
  have hchanged : (busy.replica.applyAll named).2 = .changed := by decide
  intro expected got
  simp [hchanged]

/-- The outcomes may come first, or last and the other way round. -/
theorem busy_ends_the_same :
    let early := busy.run (outcomes.map (·.input) ++ named.map (.message ∘ .sync))
    let late := busy.run (named.map (.message ∘ .sync) ++ outcomes.reverse.map (·.input))
    early.1.replica = late.1.replica ∧ early.1.overlay = late.1.overlay :=
  outcomes_may_race_the_stream busy_reached busy_takesAll_named (List.Perm.refl _).subperm
    (by decide) (List.reverse_perm _).symm (race_outcomes_first ..) (race_events_first ..)

end Tab

end HuntBoard
