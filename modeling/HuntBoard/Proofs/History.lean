-- The server's history: changes numbered without a gap, and the state at each
-- number. Whatever changes of it a replica is offered, in whatever order, it only
-- ever shows one of these states.
import HuntBoard.Proofs.Replica

namespace HuntBoard

/-! ## Numbered changes -/

/-- Events whose ids are `n + 1`, `n + 2`, and so on. -/
def ConsecutiveFrom (n : Nat) : List SyncEvent → Prop
  | [] => True
  | e :: rest => e.changeId.number = n + 1 ∧ ConsecutiveFrom (n + 1) rest

instance ConsecutiveFrom.decidable :
    (n : Nat) → (l : List SyncEvent) → Decidable (ConsecutiveFrom n l)
  | _, [] => isTrue trivial
  | n, e :: rest =>
    have := ConsecutiveFrom.decidable (n + 1) rest
    inferInstanceAs (Decidable (e.changeId.number = n + 1 ∧ ConsecutiveFrom (n + 1) rest))

theorem consecutiveFrom_append (n : Nat) (l m : List SyncEvent) :
    ConsecutiveFrom n (l ++ m) ↔ ConsecutiveFrom n l ∧ ConsecutiveFrom (n + l.length) m := by
  induction l generalizing n with
  | nil => simp [ConsecutiveFrom]
  | cons e l ih =>
    have hlen : n + (e :: l).length = n + 1 + l.length := by rw [List.length_cons]; omega
    simp only [List.cons_append, ConsecutiveFrom, ih, hlen, and_assoc]

/-- The event at each place has the number of its place. -/
theorem ConsecutiveFrom.number_eq {n : Nat} {l : List SyncEvent} (h : ConsecutiveFrom n l)
    {i : Nat} {e : SyncEvent} (hi : l[i]? = some e) : e.changeId.number = n + i + 1 := by
  induction l generalizing n i with
  | nil => simp at hi
  | cons x l ih =>
    cases i with
    | zero =>
      obtain rfl : x = e := by simpa using hi
      exact h.1
    | succ i =>
      rw [ih h.2 (by simpa using hi)]
      omega

theorem ConsecutiveFrom.head_number {n : Nat} {l : List SyncEvent} (h : ConsecutiveFrom n l)
    {e : SyncEvent} (he : l.head? = some e) : e.changeId.number = n + 1 :=
  h.number_eq (i := 0) (by rw [← List.head?_eq_getElem?, he])

theorem ConsecutiveFrom.last_number {n : Nat} {l : List SyncEvent} (h : ConsecutiveFrom n l)
    {e : SyncEvent} (he : l.getLast? = some e) : e.changeId.number = n + l.length := by
  rw [List.getLast?_eq_getElem?] at he
  have hlt := (List.getElem?_eq_some_iff.1 he).1
  rw [h.number_eq he]
  omega

/-! ## The history -/

/-- A server's state at one change, and the changes it made since. -/
structure History where
  base : ChangeId
  initial : Entities
  events : List SyncEvent
  consecutive : ConsecutiveFrom base.number events

namespace History

/-- The number of the last change. -/
def last (h : History) : Nat := h.base.number + h.events.length

/-- The state after the events up to a number. -/
def stateAt (h : History) (k : Nat) : Entities :=
  (h.events.take (k - h.base.number)).foldl (fun s e => s.change e.change) h.initial

/-- A snapshot taken at some change of the history, with no gap declared. -/
structure Holds (h : History) (s : Snapshot) : Prop where
  base_le : h.base.number ≤ s.changeId.number
  le_last : s.changeId.number ≤ h.last
  state : Entities.ofLists s.puzzles s.rounds = h.stateAt s.changeId.number
  no_gap : s.knownGap = false

variable {h : History} {e : SyncEvent}

theorem number_bounds (he : e ∈ h.events) :
    h.base.number < e.changeId.number ∧ e.changeId.number ≤ h.last := by
  obtain ⟨i, hi⟩ := List.getElem?_of_mem he
  obtain ⟨hlt, _⟩ := List.getElem?_eq_some_iff.1 hi
  have := h.consecutive.number_eq hi
  unfold last
  omega

/-- The events of a stretch of the history follow each other. -/
theorem consecutive_stretch {es : List SyncEvent} (hes : es <:+: h.events) :
    ∃ n, ConsecutiveFrom n es := by
  obtain ⟨old, new, hsplit⟩ := hes
  have hall := h.consecutive
  rw [← hsplit, consecutiveFrom_append, consecutiveFrom_append] at hall
  exact ⟨_, hall.1.2⟩

/-- The state after an event is the state before it with its change. -/
theorem stateAt_number (he : e ∈ h.events) :
    h.stateAt e.changeId.number = (h.stateAt (e.changeId.number - 1)).change e.change := by
  obtain ⟨i, hi⟩ := List.getElem?_of_mem he
  have hn := h.consecutive.number_eq hi
  have h1 : e.changeId.number - h.base.number = i + 1 := by omega
  have h2 : e.changeId.number - 1 - h.base.number = i := by omega
  unfold stateAt
  rw [h1, h2, List.take_add_one, hi, List.foldl_append]
  rfl

/-! ## Replicas of the history -/

/-- The replica shows the state of the history at its watermark, and allows no gap. -/
structure Tracks (h : History) (r : Replica) : Prop where
  base_le : h.base.number ≤ r.watermark.number
  le_last : r.watermark.number ≤ h.last
  state : r.entities = h.stateAt r.watermark.number
  no_gap : r.gapAllowed = false

theorem Holds.tracks {s : Snapshot} (hs : h.Holds s) : h.Tracks (.ofSnapshot s) :=
  ⟨hs.base_le, hs.le_last, hs.state, hs.no_gap⟩

/-- No change of the history takes a replica to a state the server never had. -/
theorem Tracks.apply {r : Replica} (hr : h.Tracks r) (he : e ∈ h.events) :
    h.Tracks (r.apply e).1 := by
  rcases r.apply_cases e with ⟨_, h'⟩ | ⟨_, _, h'⟩ | ⟨_, hnext, h'⟩
  · rwa [h']
  · rwa [h']
  · have hnumber : e.changeId.number = r.watermark.number + 1 := by
      rcases hnext with hg | hnext
      · simp [hr.no_gap] at hg
      · exact hnext
    obtain ⟨hbase, hlast⟩ := number_bounds he
    rw [h']
    refine ⟨Nat.le_of_lt hbase, hlast, ?_, rfl⟩
    have hw : e.changeId.number - 1 = r.watermark.number := by omega
    rw [stateAt_number he, hw, ← hr.state]

theorem Tracks.offered {r : Replica} (hr : h.Tracks r) {es : List SyncEvent}
    (hes : ∀ e ∈ es, e ∈ h.events) : h.Tracks (r.offered es) := by
  induction es generalizing r with
  | nil => exact hr
  | cons e es ih =>
    rw [List.forall_mem_cons] at hes
    exact ih (hr.apply hes.1) hes.2

/-! ## The law -/

/-- Two replicas are made from snapshots of one history and offered any of its
events, in any order and as often as one likes. After each offer the replica
shows a state that the server had, at its watermark, which lies between the
snapshot and the last change and never goes back. So replicas with the same
watermark show the same. -/
theorem a_replica_only_shows_states_of_the_history (h : History) {s s' : Snapshot}
    {es es' : List SyncEvent} (hs : h.Holds s) (hs' : h.Holds s')
    (hes : ∀ e ∈ es, e ∈ h.events) (hes' : ∀ e ∈ es', e ∈ h.events) :
    (∀ seen, seen <+: es →
      let r := (Replica.ofSnapshot s).offered seen
      s.changeId.number ≤ r.watermark.number ∧ r.watermark.number ≤ h.last ∧
        r.entities = h.stateAt r.watermark.number) ∧
    (∀ seen more, seen ++ more <+: es →
      ((Replica.ofSnapshot s).offered seen).watermark ≤
        ((Replica.ofSnapshot s).offered (seen ++ more)).watermark) ∧
    (((Replica.ofSnapshot s).offered es).watermark =
        ((Replica.ofSnapshot s').offered es').watermark →
      ((Replica.ofSnapshot s).offered es).entities =
        ((Replica.ofSnapshot s').offered es').entities) := by
  refine ⟨fun seen hseen => ?_, fun seen more _ => ?_, fun hw => ?_⟩
  · have ht := hs.tracks.offered fun e he => hes e (hseen.subset he)
    exact ⟨Replica.watermark_offered_le (.ofSnapshot s) seen, ht.le_last, ht.state⟩
  · rw [ChangeId.le_iff_number, Replica.offered_append]
    exact Replica.watermark_offered_le _ more
  · rw [(hs.tracks.offered hes).state, (hs'.tracks.offered hes').state, hw]

/-- A history of three changes: a puzzle comes, a round comes, the puzzle goes. -/
def tide : History where
  base := ⟨4⟩
  initial := {}
  events := [⟨⟨5⟩, .upsertPuzzle { id := ⟨1⟩, name := "Fish", round := ⟨2⟩ }⟩,
    ⟨⟨6⟩, .upsertRound { id := ⟨2⟩, name := "Ocean" }⟩, ⟨⟨7⟩, .deletePuzzle ⟨1⟩⟩]
  consecutive := by decide

/-- The snapshots of `tide` before its first change and after it. -/
def ebb : Snapshot := { changeId := ⟨4⟩ }

def flood : Snapshot :=
  { changeId := ⟨5⟩, puzzles := [{ id := ⟨1⟩, name := "Fish", round := ⟨2⟩ }] }

theorem tide_holds_ebb : tide.Holds ebb := ⟨by decide, by decide, rfl, rfl⟩

theorem tide_holds_flood : tide.Holds flood := ⟨by decide, by decide, rfl, rfl⟩

/-- Offered backwards twice, the events take a replica from the second snapshot
to the end, as the events in order take one from the first. -/
theorem replicas_of_tide_meet :
    ((Replica.ofSnapshot ebb).offered tide.events).watermark = ⟨7⟩ ∧
    ((Replica.ofSnapshot flood).offered
      (tide.events.reverse ++ tide.events.reverse)).watermark = ⟨7⟩ ∧
    ((Replica.ofSnapshot ebb).offered tide.events).entities =
      ((Replica.ofSnapshot flood).offered (tide.events.reverse ++ tide.events.reverse)).entities :=
  ⟨by decide, by decide,
    (a_replica_only_shows_states_of_the_history tide tide_holds_ebb tide_holds_flood
      (by decide) (by decide)).2.2 (by decide)⟩

end History

end HuntBoard
