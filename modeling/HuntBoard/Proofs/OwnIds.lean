-- Whatever comes to a copy of the server's state, its puzzles and rounds stand under their own
-- ids, and so they do when the tab's own writes are shown on it. What is looked up under an id, or
-- taken away there, is therefore the entity of that id.
import HuntBoard.Proofs.Entities
import Mathlib.Data.List.Induction

namespace HuntBoard

/-! ## Lists that name a key twice -/

namespace KeyedMap

variable {κ α : Type} [Ord κ] [Std.LawfulEqOrd κ] [Std.TransOrd κ] [DecidableEq κ]

/-- Of the values of a list that belong under a key, a map keeps the last one. -/
theorem get?_ofList_eq_getLast? (key : α → κ) (l : List α) (k : κ) :
    (ofList (l.map fun v => (key v, v))).get? k = (l.filter (key · = k)).getLast? := by
  induction l using List.reverseRecOn with
  | nil => rfl
  | append_singleton l v ih =>
    have hlast : ofList ((l ++ [v]).map fun v => (key v, v)) =
        (ofList (l.map fun v => (key v, v))).insert (key v) v := by
      unfold ofList
      rw [List.map_append, List.foldl_append]
      rfl
    rw [hlast, List.filter_append]
    by_cases hv : key v = k
    · subst hv
      simp
    · rw [get?_insert_ne _ _ (Ne.symm hv), ih]
      simp [hv]

end KeyedMap

/-! ## Edits -/

namespace Entities

variable {s : Entities}

/-- No edit moves an entity away from its id: a patch changes what stands there in its place, or
makes the entity of that id. -/
theorem Keyed.edit (h : s.Keyed) (e : Edit) : (s.edit e).Keyed := by
  cases e with
  | patchPuzzle id patch =>
    dsimp only [Entities.edit]
    split
    · next p hp =>
      have hid : (patch.apply p).id = id := by rw [PuzzlePatch.apply_id, h.puzzles id p hp]
      exact ⟨h.puzzles.insert hid, h.rounds⟩
    · split
      · next p hp => exact ⟨h.puzzles.insert (PuzzlePatch.toPuzzle?_id hp), h.rounds⟩
      · exact h
  | patchRound id patch =>
    dsimp only [Entities.edit]
    split
    · next r hr =>
      have hid : (patch.apply r).id = id := by rw [RoundPatch.apply_id, h.rounds id r hr]
      exact ⟨h.puzzles, h.rounds.insert hid⟩
    · split
      · next r hr => exact ⟨h.puzzles, h.rounds.insert (RoundPatch.toRound?_id hr)⟩
      · exact h
  | deletePuzzle id => exact ⟨h.puzzles.erase id, h.rounds⟩
  | deleteRound id => exact ⟨h.puzzles, h.rounds.erase id⟩

theorem Keyed.foldl_edit (h : s.Keyed) (es : List Edit) : (es.foldl Entities.edit s).Keyed := by
  induction es generalizing s with
  | nil => exact h
  | cons e es ih => exact ih (h.edit e)

theorem Keyed.under (h : s.Keyed) (o : Overlay) : (s.under o).Keyed := h.foldl_edit _

end Entities

/-! ## What comes to a copy -/

namespace Replica

/-- What comes to a copy once it was made: a change, a batch of changes, or settings. -/
inductive Arrival where
  | change (e : SyncEvent)
  | batch (es : List SyncEvent)
  | settings (s : Settings)
  deriving DecidableEq

/-- The copy takes what comes, whatever it answers. -/
def take (r : Replica) : Arrival → Replica
  | .change e => (r.apply e).1
  | .batch es => (r.applyAll es).1
  | .settings s => r.setSettings s

/-- The copy after all that came to it, in order. -/
def takeAll (r : Replica) (arrivals : List Arrival) : Replica := arrivals.foldl take r

variable {r : Replica}

theorem Reached.take (h : r.Reached) (a : Arrival) : (r.take a).Reached := by
  cases a with
  | change e => exact h.offered e
  | batch es => exact h.applyAll es
  | settings s => exact h.set s

theorem Reached.takeAll (h : r.Reached) (arrivals : List Arrival) : (r.takeAll arrivals).Reached := by
  induction arrivals generalizing r with
  | nil => exact h
  | cons a arrivals ih => exact ih (h.take a)

/-! ## The law -/

/-- A copy is made from any snapshot, of whose entries under one id the last one counts, and then
takes any changes, batches and settings. In the copy, and in what is shown of it under any writes
of the tab, every puzzle and every round stands under its own id; for no patch gives an entity
another id, and one that stands alone makes the entity of the id that was asked for. -/
theorem everything_stands_under_its_own_id (s : Snapshot) (arrivals : List Arrival) (o : Overlay) :
    let copy := (ofSnapshot s).takeAll arrivals
    copy.entities.Keyed ∧
    (copy.shown o).Keyed ∧
    (∀ (patch : PuzzlePatch) (p : Puzzle), (patch.apply p).id = p.id) ∧
    (∀ (patch : RoundPatch) (r : Round), (patch.apply r).id = r.id) ∧
    (∀ (patch : PuzzlePatch) (id : PuzzleId), ∀ p ∈ patch.toPuzzle? id, p.id = id) ∧
    (∀ (patch : RoundPatch) (id : RoundId), ∀ r ∈ patch.toRound? id, r.id = id) ∧
    (∀ id, (ofSnapshot s).entities.puzzles.get? id = (s.puzzles.filter (·.id = id)).getLast?) ∧
    ∀ id, (ofSnapshot s).entities.rounds.get? id = (s.rounds.filter (·.id = id)).getLast? := by
  intro copy
  have hreached : copy.Reached := (Reached.opened s).takeAll arrivals
  have hkeyed := hreached.keyed
  refine ⟨hkeyed, hkeyed.under o, PuzzlePatch.apply_id, RoundPatch.apply_id, ?_, ?_, ?_, ?_⟩
  · intro patch id p hp
    exact PuzzlePatch.toPuzzle?_id hp
  · intro patch id r hr
    exact RoundPatch.toRound?_id hr
  · intro id
    exact KeyedMap.get?_ofList_eq_getLast? Puzzle.id s.puzzles id
  · intro id
    exact KeyedMap.get?_ofList_eq_getLast? Round.id s.rounds id

example :
    ((ofSnapshot {
      changeId := ⟨1⟩
      puzzles := [{ id := ⟨3⟩, name := "Ebb", round := ⟨1⟩ }, { id := ⟨3⟩, name := "Flow", round := ⟨1⟩ }]
    }).entities.puzzles.get? ⟨3⟩).map Puzzle.name = some "Flow" := by decide

end Replica

end HuntBoard
