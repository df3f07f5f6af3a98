-- Puzzles and rounds stand under their own ids, in the server's state and in every
-- copy of it. What an edit shows on such a state is what some change would do to it.
import HuntBoard.Proofs.KeyedMap
import HuntBoard.Proofs.Replica

namespace HuntBoard

/-! ## Entities that a patch makes -/

theorem PuzzlePatch.toPuzzle?_id {patch : PuzzlePatch} {id : PuzzleId} {p : Puzzle}
    (h : patch.toPuzzle? id = some p) : p.id = id := by
  unfold toPuzzle? at h
  split at h
  · obtain rfl := Option.some.inj h
    rfl
  · simp at h

theorem RoundPatch.toRound?_id {patch : RoundPatch} {id : RoundId} {r : Round}
    (h : patch.toRound? id = some r) : r.id = id := by
  unfold toRound? at h
  obtain ⟨name, -, rfl⟩ := Option.map_eq_some_iff.1 h
  rfl

/-! ## States -/

namespace Entities

variable {s : Entities}

/-- Every puzzle and every round stands under its own id. -/
structure Keyed (s : Entities) : Prop where
  puzzles : s.puzzles.All fun id p => p.id = id
  rounds : s.rounds.All fun id r => r.id = id

theorem keyed_ofLists (puzzles : List Puzzle) (rounds : List Round) :
    (ofLists puzzles rounds).Keyed := by
  constructor
  · apply KeyedMap.all_ofList
    simp
  · apply KeyedMap.all_ofList
    simp

theorem Keyed.change (h : s.Keyed) (c : Change) : (s.change c).Keyed := by
  cases c with
  | upsertPuzzle p => exact ⟨h.puzzles.insert rfl, h.rounds⟩
  | deletePuzzle id => exact ⟨h.puzzles.erase id, h.rounds⟩
  | upsertRound r => exact ⟨h.puzzles, h.rounds.insert rfl⟩
  | deleteRound id => exact ⟨h.puzzles, h.rounds.erase id⟩

/-- The change that does to a state what an edit shows on it: the whole entity with the
patch, the entity that the patch makes on its own, or the deletion. A patch of what is
not there and that cannot stand alone comes to no change. -/
def changeFor? (s : Entities) : Edit → Option Change
  | .patchPuzzle id patch =>
    match s.puzzles.get? id with
    | some p => some (.upsertPuzzle (patch.apply p))
    | none => (patch.toPuzzle? id).map .upsertPuzzle
  | .patchRound id patch =>
    match s.rounds.get? id with
    | some r => some (.upsertRound (patch.apply r))
    | none => (patch.toRound? id).map .upsertRound
  | .deletePuzzle id => some (.deletePuzzle id)
  | .deleteRound id => some (.deleteRound id)

theorem change_of_changeFor? (h : s.Keyed) {e : Edit} {c : Change} (hc : s.changeFor? e = some c) :
    s.change c = s.edit e := by
  cases e with
  | patchPuzzle id patch =>
    unfold changeFor? at hc
    unfold edit
    cases hp : s.puzzles.get? id with
    | some p =>
      simp only [hp, Option.some.injEq] at hc ⊢
      subst hc
      simp only [change, PuzzlePatch.apply_id, h.puzzles id p hp]
    | none =>
      simp only [hp, Option.map_eq_some_iff] at hc ⊢
      obtain ⟨p, hnew, rfl⟩ := hc
      simp only [hnew, change, PuzzlePatch.toPuzzle?_id hnew]
  | patchRound id patch =>
    unfold changeFor? at hc
    unfold edit
    cases hr : s.rounds.get? id with
    | some r =>
      simp only [hr, Option.some.injEq] at hc ⊢
      subst hc
      simp only [change, RoundPatch.apply_id, h.rounds id r hr]
    | none =>
      simp only [hr, Option.map_eq_some_iff] at hc ⊢
      obtain ⟨r, hnew, rfl⟩ := hc
      simp only [hnew, change, RoundPatch.toRound?_id hnew]
  | deletePuzzle id =>
    obtain rfl := Option.some.inj hc
    rfl
  | deleteRound id =>
    obtain rfl := Option.some.inj hc
    rfl

end Entities

/-! ## Replicas -/

/-- A replica as it can come to be: from a snapshot, by changes that are offered and by
settings. -/
inductive Replica.Reached : Replica → Prop
  | opened (s : Snapshot) : Reached (.ofSnapshot s)
  | offered {r : Replica} (h : Reached r) (e : SyncEvent) : Reached (r.apply e).1
  | set {r : Replica} (h : Reached r) (s : Settings) : Reached (r.setSettings s)

theorem Replica.Reached.keyed {r : Replica} (h : r.Reached) : r.entities.Keyed := by
  induction h with
  | opened s => exact Entities.keyed_ofLists s.puzzles s.rounds
  | @offered r _ e ih =>
    rcases r.apply_cases e with ⟨_, ha⟩ | ⟨_, _, ha⟩ | ⟨_, _, ha⟩
    · rw [ha]; exact ih
    · rw [ha]; exact ih
    · rw [ha]; exact ih.change e.change
  | set _ s ih => exact ih

theorem Replica.Reached.applyAll {r : Replica} (h : r.Reached) (es : List SyncEvent) :
    (r.applyAll es).1.Reached := by
  induction es generalizing r with
  | nil => exact h
  | cons e es ih =>
    have hfirst := h.offered e
    unfold Replica.applyAll
    generalize r.apply e = first at hfirst ⊢
    obtain ⟨next, answer⟩ := first
    cases answer with
    | drift expected got => exact hfirst
    | stale => exact ih hfirst
    | changed =>
      have hrest := ih hfirst
      dsimp only at hrest ⊢
      generalize next.applyAll es = rest at hrest ⊢
      obtain ⟨last, answer⟩ := rest
      cases answer <;> exact hrest

end HuntBoard
