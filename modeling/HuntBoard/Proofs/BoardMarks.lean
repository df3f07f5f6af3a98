-- The board of a tab is never older than what it is made of: whatever changes what is to
-- be shown marks the board, and a marked board is made anew before the tab waits again.
import HuntBoard.Proofs.TabSteps

namespace HuntBoard

namespace Tab

/-! ## Marks -/

/-- The tab with another board, which is out of date or not. -/
def withBoard (t : Tab) (b : Board) (dirty : Bool) : Tab := { t with board := b, dirty }

/-- What is done to a tab has no part in its board but for a mark that it is out of date,
and sets that mark if it changes what is to be shown. -/
structure Marks (f : Tab → Tab) (t : Tab) (marked : Bool) : Prop where
  board : ∀ b dirty, f (t.withBoard b dirty) = (f t).withBoard b (dirty || marked)
  shown : marked = false → (f t).shown = t.shown

variable {t : Tab} {f g : Tab → Tab} {m n : Bool}

theorem marks_of_beside (hboard : ∀ b dirty, f (t.withBoard b dirty) = (f t).withBoard b dirty)
    (hshown : (f t).shown = t.shown) : Marks f t false := by
  constructor
  · intro b dirty
    rw [hboard, Bool.or_false]
  · intro _
    exact hshown

theorem marks_of_dirty (hboard : ∀ b dirty, f (t.withBoard b dirty) = (f t).withBoard b true) :
    Marks f t true := by
  constructor
  · intro b dirty
    rw [hboard, Bool.or_true]
  · simp

theorem marks_id (t : Tab) : Marks (fun t => t) t false :=
  marks_of_beside (fun _ _ => rfl) rfl

theorem Marks.andThen (hf : Marks f t m) (hg : Marks g (f t) n) :
    Marks (fun t => g (f t)) t (m || n) where
  board b dirty := by
    rw [hf.board, hg.board, Bool.or_assoc]
  shown h := by
    rw [Bool.or_eq_false_iff] at h
    rw [hg.shown h.2, hf.shown h.1]

/-- It counts only what is done to this tab, whatever its board is. -/
theorem Marks.congr (hg : Marks g t m)
    (h : ∀ b dirty, f (t.withBoard b dirty) = g (t.withBoard b dirty)) : Marks f t m := by
  have hself : f t = g t := h t.board t.dirty
  constructor
  · intro b dirty
    rw [h, hself, hg.board]
  · intro hm
    rw [hself, hg.shown hm]

/-- So the board itself stays, and a mark stays until the board is made anew. -/
theorem Marks.frame (hf : Marks f t m) : (f t).board = t.board ∧ (f t).dirty = (t.dirty || m) := by
  have hself : f t = (f t).withBoard t.board (t.dirty || m) := hf.board t.board t.dirty
  constructor <;> rw [hself] <;> rfl

theorem Marks.dirty_of_shown_ne (hf : Marks f t m) (h : (f t).shown ≠ t.shown) :
    (f t).dirty = true := by
  cases m with
  | false => exact absurd (hf.shown rfl) h
  | true => rw [hf.frame.2, Bool.or_true]

/-! ## The parts of a step -/

theorem marks_reload (t : Tab) (r : ReloadReason) : Marks (fun t => (t.reload r).1) t false := by
  apply marks_of_beside
  · intro b dirty
    rw [(reload_frame _ r).1, (reload_frame _ r).1]
    rfl
  · rw [(reload_frame _ r).1]
    rfl

theorem marks_setConnection (t : Tab) (s : LinkState) :
    Marks (fun t => (t.setConnection s).1) t false := by
  have hset : Marks (fun t => { t with connection := s }) t false :=
    marks_of_beside (fun _ _ => rfl) rfl
  unfold setConnection
  simp only [andThen_fst]
  split
  · exact hset.andThen (marks_reload _ .dead)
  · exact hset

theorem marks_echo (t : Tab) (c : ChangeId) :
    Marks (fun t => t.echo c) t (t.overlay.get? (.confirmed c)).isSome := by
  cases hget : t.overlay.get? (.confirmed c) <;> constructor <;> simp [echo, withBoard, hget]

/-- Take a change of which nothing is shown as the tab's own any more. -/
def absorb (t : Tab) (e : SyncEvent) : Outcome :=
  match t.replica.apply e with
  | (replica, .changed) =>
    ({ t with replica, overlay := (t.overlay.pruneThrough replica.watermark).1, dirty := true }, [])
  | (_, .stale) => (t, [])
  | (_, .drift expected got) => t.reload (.drift expected got)

theorem sync_eq_absorb (t : Tab) (e : SyncEvent) :
    t.sync e = (t.echo e.changeId).absorb e := rfl

theorem marks_absorb (t : Tab) (e : SyncEvent) : ∃ m, Marks (fun t => (t.absorb e).1) t m := by
  have hreplica : ∀ b dirty, (t.withBoard b dirty).replica = t.replica := fun _ _ => rfl
  rcases t.replica.apply_cases e with ⟨_, ha⟩ | ⟨_, _, ha⟩ | ⟨_, _, ha⟩
  · refine ⟨false, (marks_id t).congr ?_⟩
    intro b dirty
    unfold absorb
    rw [hreplica, ha]
  · refine ⟨false, (marks_reload t (.drift t.replica.watermark.next e.changeId)).congr ?_⟩
    intro b dirty
    unfold absorb
    rw [hreplica, ha]
  · refine ⟨true, marks_of_dirty ?_⟩
    intro b dirty
    unfold absorb
    simp only [hreplica, ha]
    rfl

theorem marks_sync (t : Tab) (e : SyncEvent) : ∃ m, Marks (fun t => (t.sync e).1) t m := by
  obtain ⟨m, hm⟩ := marks_absorb (t.echo e.changeId) e
  simp only [sync_eq_absorb]
  exact ⟨_, (marks_echo t e.changeId).andThen hm⟩

theorem marks_write (t : Tab) (request : WriteRequest) (optimistic : Bool) :
    ∃ m, Marks (fun t => (t.write request optimistic).1) t m := by
  unfold write
  cases (if optimistic then request.edit? else none) with
  | none => exact ⟨false, marks_id t⟩
  | some e => exact ⟨true, marks_of_dirty fun _ _ => rfl⟩

theorem marks_forget (t : Tab) (w : OpenWrite) :
    Marks (fun t => t.forget w) t w.pending.isSome := by
  unfold forget
  cases w.pending with
  | none => exact marks_id t
  | some key => exact marks_of_dirty fun _ _ => rfl

theorem marks_confirm (t : Tab) (request : WriteRequest) (reply : WriteReply) :
    ∃ m, Marks (fun t => t.confirm request reply) t m := by
  unfold confirm
  cases reply.edit? request with
  | none => exact ⟨false, marks_id t⟩
  | some e =>
    by_cases hold : reply.changeId ≤ t.replica.watermark
    · refine ⟨false, (marks_id t).congr ?_⟩
      intro b dirty
      simp [Overlay.confirm, withBoard, hold]
    · refine ⟨true, marks_of_dirty ?_⟩
      intro b dirty
      simp [Overlay.confirm, withBoard, hold]

theorem marks_settled (t : Tab) (w : OpenWrite) (outcome : Except WriteFault WriteReply) :
    ∃ m, Marks (fun t => (t.settled w outcome).1) t m := by
  have hforget := marks_forget t w
  cases outcome with
  | ok reply =>
    obtain ⟨m, hm⟩ := marks_confirm (t.forget w) w.request reply
    exact ⟨_, hforget.andThen hm⟩
  | error f =>
    unfold settled
    simp only [andThen_fst]
    split
    · exact ⟨_, hforget.andThen (marks_reload _ .unauthorized)⟩
    · exact ⟨_, hforget⟩

/-! ## One input and many -/

theorem marks_step (t : Tab) (i : TabInput) : ∃ m, Marks (fun t => (t.step i).1) t m := by
  cases i with
  | message msg =>
    cases msg with
    | sync e => exact marks_sync t e
    | status s => exact ⟨false, marks_setConnection t s⟩
    | settings s => exact ⟨false, marks_of_beside (fun _ _ => rfl) rfl⟩
    | presence p => exact ⟨false, marks_id t⟩
    | users u => exact ⟨false, marks_id t⟩
  | hubLost =>
    have hdetach : Marks (fun t => { t with attached := false }) t false :=
      marks_of_beside (fun _ _ => rfl) rfl
    exact ⟨_, hdetach.andThen (marks_setConnection _ .disconnected)⟩
  | write request optimistic => exact marks_write t request optimistic
  | settled w outcome => exact marks_settled t w outcome
  | activity subject active => exact ⟨false, marks_id t⟩

theorem marks_run (t : Tab) (is : List TabInput) : ∃ m, Marks (fun t => (t.run is).1) t m := by
  induction is generalizing t with
  | nil => exact ⟨false, marks_id t⟩
  | cons i is ih =>
    obtain ⟨m, hm⟩ := marks_step t i
    obtain ⟨n, hn⟩ := ih (t.step i).1
    exact ⟨_, hm.andThen hn⟩

/-! ## Making the board anew -/

theorem refresh_of_dirty (h : t.dirty = true) (now : Instant) :
    t.refresh now = t.withBoard (.ofEntities t.shown now) false := by
  unfold refresh
  rw [if_pos h]
  rfl

theorem refresh_of_clean (h : t.dirty = false) (now : Instant) : t.refresh now = t := by
  unfold refresh
  rw [if_neg (by rw [h]; simp)]

/-- To make the board before something is done and once more behind it, at one time, comes
to the same as to make it behind it only. -/
theorem Marks.refresh (hf : Marks f t m) (now : Instant) :
    (f (t.refresh now)).refresh now = (f t).refresh now := by
  cases hd : t.dirty with
  | false => rw [refresh_of_clean hd]
  | true =>
    have hdirty : (f t).dirty = true := by rw [hf.frame.2, hd, Bool.true_or]
    rw [refresh_of_dirty hd, hf.board, refresh_of_dirty hdirty, Bool.false_or]
    cases m with
    | false => rw [refresh_of_clean rfl, hf.shown rfl]
    | true => exact refresh_of_dirty rfl now

theorem run_refresh (t : Tab) (is : List TabInput) (now : Instant) :
    (t.run is).1.refresh now =
      is.foldl (fun t i => (t.step i).1.refresh now) (t.refresh now) := by
  induction is generalizing t with
  | nil => rfl
  | cons i is ih =>
    obtain ⟨m, hm⟩ := marks_step t i
    rw [List.foldl_cons, hm.refresh now]
    exact ih (t.step i).1

end Tab

/-! ## A tab that waits -/

/-- A tab that waits for what comes next, and the time at which its board was made. -/
structure Waiting where
  tab : Tab
  madeAt : Instant

namespace Waiting

/-- A new tab makes its board before it waits. -/
def ofSnapshot (s : Snapshot) (now : Instant) : Waiting := ⟨(Tab.ofSnapshot s).refresh now, now⟩

/-- What comes is one input, or all messages that are queued by then. Only when all of it
is dealt with, and only if the board is out of date by then, it is made anew. -/
def wake (w : Waiting) (came : Instant × List TabInput) : Waiting :=
  let t := (w.tab.run came.2).1
  ⟨t.refresh came.1, if t.dirty then came.1 else w.madeAt⟩

def wakeAll (w : Waiting) (came : List (Instant × List TabInput)) : Waiting := came.foldl wake w

/-- The board shows what the tab has, as of the time at which it was made. -/
structure UpToDate (w : Waiting) : Prop where
  clean : w.tab.dirty = false
  board : w.tab.board = .ofEntities w.tab.shown w.madeAt

variable {w : Waiting}

theorem upToDate_ofSnapshot (s : Snapshot) (now : Instant) : (ofSnapshot s now).UpToDate :=
  ⟨rfl, rfl⟩

theorem UpToDate.wake (hw : w.UpToDate) (came : Instant × List TabInput) :
    (w.wake came).UpToDate := by
  obtain ⟨m, hm⟩ := Tab.marks_run w.tab came.2
  obtain ⟨hboard, hdirty⟩ := hm.frame
  rw [hw.clean, Bool.false_or] at hdirty
  unfold Waiting.wake
  dsimp only
  cases m with
  | false =>
    rw [Tab.refresh_of_clean hdirty, hdirty]
    refine ⟨hdirty, ?_⟩
    rw [hboard, hw.board, ← hm.shown rfl]
    rfl
  | true =>
    rw [Tab.refresh_of_dirty hdirty, hdirty]
    exact ⟨rfl, rfl⟩

theorem UpToDate.wakeAll (hw : w.UpToDate) (came : List (Instant × List TabInput)) :
    (w.wakeAll came).UpToDate := by
  induction came generalizing w with
  | nil => exact hw
  | cons c came ih => exact ih (hw.wake c)

/-- Whenever a tab waits, its board is that of what it has, as of the time at which the
board was made last. Whatever the tab took since then, each input that changes what is to
be shown marks the board itself, and does not leave that to others. And when the board is
made once for all messages that were queued, the tab is as if it had been made behind
each of them at that time. -/
theorem the_board_is_up_to_date (s : Snapshot) (now : Instant)
    (came : List (Instant × List TabInput)) :
    let w := (ofSnapshot s now).wakeAll came
    w.tab.board = .ofEntities w.tab.shown w.madeAt ∧
    (∀ is i, let t : Tab := { (w.tab.run is).1 with dirty := false }
      (t.step i).1.shown ≠ t.shown → (t.step i).1.dirty = true) ∧
    ∀ (ms : List HubMessage) (later : Instant), (w.tab.run (ms.map .message)).1.refresh later =
      ms.foldl (fun t m => (t.step (.message m)).1.refresh later) w.tab := by
  intro w
  have hw : w.UpToDate := (upToDate_ofSnapshot s now).wakeAll came
  refine ⟨hw.board, ?_, ?_⟩
  · intro is i t hne
    obtain ⟨m, hm⟩ := Tab.marks_step t i
    exact hm.dirty_of_shown_ne hne
  · intro ms later
    rw [Tab.run_refresh, Tab.refresh_of_clean hw.clean, List.foldl_map]

def noon : Instant :=
  ⟨⟨2026, 1, 16, by decide, by decide, by decide, by decide⟩, 43200, 0, by decide, by decide,
    by decide⟩

def evening : Instant := { noon with second := 64800, second_lt := by decide, leap_at_end := by decide }

/-- A puzzle comes at noon. In the evening there is nothing to be shown. -/
def twoLooks : List (Instant × List TabInput) :=
  [(noon, [.message (.sync ⟨⟨5⟩, .upsertPuzzle { id := ⟨1⟩, name := "Fish", round := ⟨2⟩ }⟩)]),
    (evening, [.message (.users {}), .message (.status .connected)])]

/-- So in the evening the board is that of noon. Two changes that come then are both shown
when the board is made once. -/
theorem the_board_of_noon_stands :
    let w := (ofSnapshot { changeId := ⟨4⟩ } noon).wakeAll twoLooks
    let renamed : HubMessage :=
      .sync ⟨⟨6⟩, .upsertPuzzle { id := ⟨1⟩, name := "Whale", round := ⟨2⟩ }⟩
    let gone : HubMessage := .sync ⟨⟨7⟩, .deletePuzzle ⟨1⟩⟩
    w.madeAt = noon ∧ w.tab.board = .ofEntities w.tab.shown noon ∧
    w.tab.board.puzzleCount = 1 ∧ (w.tab.step (.message gone)).1.shown = w.tab.shown ∧
    (w.tab.step (.message renamed)).1.shown ≠ w.tab.shown ∧
    (w.tab.step (.message renamed)).1.dirty = true ∧
    (w.tab.run [.message renamed, .message gone]).1.refresh evening =
      ((((w.tab.step (.message renamed)).1.refresh evening).step (.message gone)).1.refresh
        evening) := by
  intro w renamed gone
  obtain ⟨hboard, hmarks, hdrain⟩ := the_board_is_up_to_date { changeId := ⟨4⟩ } noon twoLooks
  have hmade : w.madeAt = noon := by rfl
  have hchanged : (w.tab.step (.message renamed)).1.shown ≠ w.tab.shown := by decide
  refine ⟨hmade, ?_, by decide, by decide, hchanged, ?_, ?_⟩
  · rw [← hmade]
    exact hboard
  · exact hmarks [] (.message renamed) hchanged
  · exact hdrain [renamed, gone] evening

end Waiting

end HuntBoard
