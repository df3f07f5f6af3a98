-- Every puzzle of a known round stands on the board once, as it is, and in its own round. The
-- numbers on the board count what there is.
import HuntBoard.Proofs.BoardMarks
import HuntBoard.Proofs.Entities
import Mathlib.Algebra.GroupWithZero.Nat
import Mathlib.Data.List.Perm.Basic

namespace HuntBoard

/-! ## Values in groups -/

/-- A list of values in groups, one for each of some keys, is the list of those with such a key. -/
theorem flatMap_filter_perm {κ α : Type} [DecidableEq κ] (key : α → κ) (l : List α) {ks : List κ}
    (hks : ks.Nodup) :
    (ks.flatMap fun k => l.filter (key · = k)).Perm (l.filter (key · ∈ ks)) := by
  induction ks with
  | nil => simp
  | cons k ks ih =>
    rw [List.nodup_cons] at hks
    have hfirst : (l.filter (key · ∈ k :: ks)).filter (key · = k) = l.filter (key · = k) := by
      rw [List.filter_filter]
      apply List.filter_congr
      intro a _
      by_cases ha : key a = k <;> simp [ha]
    have hothers : (l.filter (key · ∈ k :: ks)).filter (fun a => !decide (key a = k)) =
        l.filter (key · ∈ ks) := by
      rw [List.filter_filter]
      apply List.filter_congr
      intro a _
      by_cases ha : key a = k
      · simp [ha, hks.1]
      · simp [ha]
    have hsplit := List.filter_append_perm (key · = k) (l.filter (key · ∈ k :: ks))
    rw [hfirst, hothers] at hsplit
    rw [List.flatMap_cons]
    exact ((ih hks.2).append_left _).trans hsplit

theorem eq_toList_of_perm {α : Type} {l : List α} {o : Option α} (h : l.Perm o.toList) :
    l = o.toList := by
  cases o with
  | none => exact List.perm_nil.1 h
  | some a => exact List.perm_singleton.1 h

namespace KeyedMap

variable {κ α : Type} [Ord κ] [Std.LawfulEqOrd κ] {m : KeyedMap κ α} {key : α → κ}

/-- Values that tell their own keys tell the keys of the map. -/
theorem map_values (h : m.All fun k v => key v = k) : m.values.map key = m.keys := by
  unfold values keys
  rw [List.map_map]
  apply List.map_congr_left
  rintro ⟨k, v⟩ hmem
  exact h k v ((m.get?_eq_some_iff k v).2 hmem)

/-- And of each key there is one, the value that stands under it. -/
theorem filter_values [Std.TransOrd κ] [DecidableEq κ] (h : m.All fun k v => key v = k) (k : κ) :
    m.values.filter (key · = k) = (m.get? k).toList := by
  have hkeys : m.toList.filter ((fun v => decide (key v = k)) ∘ (·.2)) =
      m.toList.filter (·.1 = k) := by
    apply List.filter_congr
    rintro ⟨k', v⟩ hmem
    simp [h k' v ((m.get?_eq_some_iff k' v).2 hmem)]
  rw [values, List.filter_map, hkeys, filter_key]
  cases m.get? k <;> rfl

end KeyedMap

/-! ## Known rounds -/

namespace Entities

/-- The round of a puzzle is known. -/
def knows (s : Entities) (p : Puzzle) : Bool := s.rounds.contains p.round

/-- The puzzles whose rounds are not known. -/
def orphans (s : Entities) : List Puzzle := s.puzzles.values.filter fun p => !s.knows p

end Entities

/-! ## Groups -/

namespace Board

variable {s : Entities} (now : Instant)

theorem getD_join (groups : KeyedMap RoundId (List Puzzle)) (p : Puzzle) (id : RoundId) :
    ((join groups p).get? id).getD [] =
      (groups.get? id).getD [] ++ [p].filter (·.round = id) := by
  by_cases h : p.round = id
  · subst h
    rw [join, KeyedMap.get?_insert_self, Option.getD_some, List.filter_cons_of_pos (by simp),
      List.filter_nil]
  · rw [join, KeyedMap.get?_insert_ne _ _ (Ne.symm h), List.filter_cons_of_neg (by simpa using h),
      List.filter_nil, List.append_nil]

/-- A group has the puzzles of its round, behind those that were there before. -/
theorem getD_foldl_join (groups : KeyedMap RoundId (List Puzzle)) (puzzles : List Puzzle)
    (id : RoundId) :
    ((puzzles.foldl join groups).get? id).getD [] =
      (groups.get? id).getD [] ++ puzzles.filter (·.round = id) := by
  induction puzzles generalizing groups with
  | nil => exact (List.append_nil _).symm
  | cons p puzzles ih =>
    rw [List.foldl_cons, ih, getD_join, List.append_assoc, ← List.filter_append,
      List.singleton_append]

/-- No round finds its group taken away, if no two have the same id. -/
theorem deal_eq_map {groups : KeyedMap RoundId (List Puzzle)} {rounds : List Round}
    (h : (rounds.map (·.id)).Nodup) :
    deal now groups rounds =
      rounds.map fun r => roundBoard now r ((groups.get? r.id).getD []) := by
  induction rounds generalizing groups with
  | nil => rfl
  | cons r rounds ih =>
    rw [List.map_cons, List.nodup_cons] at h
    rw [deal, ih h.2, List.map_cons]
    congr 1
    apply List.map_congr_left
    intro other hmem
    have hne : other.id ≠ r.id := fun heq => h.1 (heq ▸ List.mem_map_of_mem hmem)
    rw [KeyedMap.get?_erase_ne _ hne]

/-! ## What stands on a board -/

/-- The rounds of the board, in whatever order, are the known rounds, each with its own puzzles. -/
theorem rounds_perm (hs : s.Keyed) :
    (ofEntities s now).rounds.Perm (s.rounds.values.map fun r =>
      roundBoard now r (s.puzzles.values.filter (·.round = r.id))) := by
  have hids : (s.rounds.values.map (·.id)).Nodup := by
    rw [KeyedMap.map_values hs.rounds]
    exact s.rounds.keys_nodup
  have hdealt : deal now (s.puzzles.values.foldl join .empty) s.rounds.values =
      s.rounds.values.map fun r => roundBoard now r (s.puzzles.values.filter (·.round = r.id)) := by
    rw [deal_eq_map now hids]
    simp only [getD_foldl_join, KeyedMap.get?_empty, Option.getD_none, List.nil_append]
  rw [← hdealt]
  exact List.mergeSort_perm ..

theorem roundBoard_perm (r : Round) (own : List Puzzle) :
    (roundBoard now r own).puzzles.Perm own :=
  List.mergeSort_perm ..

/-- The rounds of the board with an id are the known round of that id, if there is one. -/
theorem filter_rounds (hs : s.Keyed) (id : RoundId) :
    ((ofEntities s now).rounds.filter (·.round.id = id)).map (·.round) =
      (s.rounds.get? id).toList := by
  apply eq_toList_of_perm
  have hperm := ((rounds_perm now hs).map (·.round)).filter (·.id = id)
  have hsame : (s.rounds.values.map fun r =>
      roundBoard now r (s.puzzles.values.filter (·.round = r.id))).map (·.round) =
      s.rounds.values := by
    rw [List.map_map]
    exact List.map_id _
  rw [hsame, KeyedMap.filter_values hs.rounds, List.filter_map] at hperm
  exact hperm

/-- The puzzles of all rounds of the board are those of known rounds. -/
theorem puzzles_perm (hs : s.Keyed) :
    ((ofEntities s now).rounds.flatMap (·.puzzles)).Perm (s.puzzles.values.filter s.knows) := by
  have hrounds := (rounds_perm now hs).flatMap_right (·.puzzles)
  have hgroups : (s.rounds.values.flatMap fun r =>
      (roundBoard now r (s.puzzles.values.filter (·.round = r.id))).puzzles).Perm
      (s.rounds.values.flatMap fun r => s.puzzles.values.filter (·.round = r.id)) :=
    List.Perm.flatMap_left _ fun r _ => roundBoard_perm now r _
  have hkeys : (s.rounds.values.flatMap fun r => s.puzzles.values.filter (·.round = r.id)) =
      s.rounds.keys.flatMap fun id => s.puzzles.values.filter (·.round = id) := by
    rw [← KeyedMap.map_values hs.rounds, List.flatMap_map]
  have hknown : s.puzzles.values.filter (·.round ∈ s.rounds.keys) =
      s.puzzles.values.filter s.knows := by
    apply List.filter_congr
    intro p _
    simp [Entities.knows, KeyedMap.contains, KeyedMap.mem_keys]
  rw [List.flatMap_map] at hrounds
  rw [hkeys] at hgroups
  rw [← hknown]
  exact hrounds.trans (hgroups.trans (flatMap_filter_perm _ _ s.rounds.keys_nodup))

/-- A round of the board has its own puzzles. -/
theorem puzzles_perm_of_mem (hs : s.Keyed) {b : RoundBoard} (hb : b ∈ (ofEntities s now).rounds) :
    b.puzzles.Perm (s.puzzles.values.filter (·.round = b.round.id)) := by
  obtain ⟨r, -, rfl⟩ := List.mem_map.1 ((rounds_perm now hs).mem_iff.1 hb)
  exact roundBoard_perm now r _

/-- Of a list with the puzzles of a state that pass a test, those with an id are the puzzle of that
id, if it passes. -/
theorem filter_of_perm (hs : s.Keyed) {l : List Puzzle} {p : Puzzle → Bool}
    (h : l.Perm (s.puzzles.values.filter p)) (id : PuzzleId) :
    l.filter (·.id = id) = ((s.puzzles.get? id).filter p).toList := by
  apply eq_toList_of_perm
  have hperm := h.filter (·.id = id)
  rwa [List.filter_comm, KeyedMap.filter_values hs.puzzles, ← Option.toList_filter] at hperm

/-! ## What is found on a board -/

theorem puzzle?_ofEntities (hs : s.Keyed) (id : PuzzleId) :
    (ofEntities s now).puzzle? id = (s.puzzles.get? id).filter s.knows := by
  unfold puzzle?
  rw [← List.head?_filter, filter_of_perm hs (puzzles_perm now hs)]
  cases (s.puzzles.get? id).filter s.knows <;> rfl

theorem map_round?_ofEntities (hs : s.Keyed) (id : RoundId) :
    ((ofEntities s now).round? id).map (·.round) = s.rounds.get? id := by
  unfold round?
  rw [← List.head?_filter, ← List.head?_map, filter_rounds now hs]
  cases s.rounds.get? id <;> rfl

/-- No other round of the board has the id of one that stands on it. -/
theorem round?_eq_some_iff (hs : s.Keyed) {id : RoundId} {b : RoundBoard} :
    (ofEntities s now).round? id = some b ↔ b ∈ (ofEntities s now).rounds ∧ b.round.id = id := by
  unfold round?
  constructor
  · intro h
    exact ⟨List.mem_of_find?_eq_some h, by simpa using List.find?_some h⟩
  · rintro ⟨hb, hid⟩
    have hmem : b ∈ (ofEntities s now).rounds.filter (·.round.id = id) :=
      List.mem_filter.2 ⟨hb, by simpa using hid⟩
    have hone := congrArg List.length (filter_rounds now hs id)
    rw [List.length_map] at hone
    have hle : (s.rounds.get? id).toList.length ≤ 1 := by
      cases s.rounds.get? id <;> simp
    rw [← List.head?_filter]
    obtain ⟨c, rest, hrest⟩ := List.exists_cons_of_ne_nil (List.ne_nil_of_mem hmem)
    rw [hrest] at hmem hone ⊢
    obtain rfl : rest = [] := by
      apply List.length_eq_zero_iff.1
      rw [List.length_cons] at hone
      omega
    rw [List.mem_singleton.1 hmem]
    rfl

/-! ## What the numbers count -/

/-- What holds of a number of the puzzles that there are: those on the board with it, and the
orphans with it. -/
theorem countP_values (hs : s.Keyed) (p : Puzzle → Bool) :
    s.puzzles.values.countP p =
      ((ofEntities s now).rounds.map fun b => b.puzzles.countP p).sum + s.orphans.countP p := by
  rw [List.countP_eq_countP_filter_add _ p s.knows, ← (puzzles_perm now hs).countP_eq,
    List.countP_flatMap]
  rfl

/-! ## The law -/

/-- The board of a state has each known round once, and on it each puzzle of a known round once, as
it is, and in its own round; no orphan stands on it. To look for a puzzle or a round by its id
finds just these. The numbers of a round count its own puzzles, and those of the board count all
puzzles there are, in the rounds and orphans. -/
theorem each_puzzle_stands_once_in_its_own_round (hs : s.Keyed) :
    let b := ofEntities s now
    (∀ id, (b.rounds.filter (·.round.id = id)).map (·.round) = (s.rounds.get? id).toList) ∧
    (∀ id, (b.rounds.flatMap (·.puzzles)).filter (·.id = id) =
      ((s.puzzles.get? id).filter s.knows).toList) ∧
    (∀ r ∈ b.rounds, ∀ id, r.puzzles.filter (·.id = id) =
      ((s.puzzles.get? id).filter (·.round = r.round.id)).toList) ∧
    (∀ id, b.puzzle? id = (s.puzzles.get? id).filter s.knows) ∧
    (∀ id, (b.round? id).map (·.round) = s.rounds.get? id) ∧
    (∀ id r, b.round? id = some r ↔ r ∈ b.rounds ∧ r.round.id = id) ∧
    (∀ r ∈ b.rounds, let own := s.puzzles.values.filter (·.round = r.round.id)
      r.total = own.length ∧ r.solved = own.countP Puzzle.isSolved) ∧
    b.puzzleCount = s.puzzles.size ∧
    b.puzzleCount = (b.rounds.map (·.total)).sum + s.orphans.length ∧
    b.solvedCount = s.puzzles.values.countP Puzzle.isSolved ∧
    b.solvedCount = (b.rounds.map (·.solved)).sum + s.orphans.countP Puzzle.isSolved := by
  intro b
  refine ⟨filter_rounds now hs, filter_of_perm hs (puzzles_perm now hs), ?_,
    puzzle?_ofEntities now hs, map_round?_ofEntities now hs, fun id r => round?_eq_some_iff now hs,
    ?_, rfl, ?_, rfl, countP_values now hs Puzzle.isSolved⟩
  · intro r hr
    exact filter_of_perm hs (puzzles_perm_of_mem now hs hr)
  · intro r hr own
    have hperm : r.puzzles.Perm own := puzzles_perm_of_mem now hs hr
    exact ⟨hperm.length_eq, hperm.countP_eq _⟩
  · have hsize : b.puzzleCount = s.puzzles.values.length := (List.length_map ..).symm
    have hcount := countP_values now hs fun _ => true
    simp only [List.countP_true] at hcount
    rw [hsize]
    exact hcount

/-- Two rounds, one of them without puzzles. Of three puzzles, one has a round that is not known. -/
def withOrphan : Entities :=
  .ofLists
    [{ id := ⟨1⟩, name := "Fish", round := ⟨1⟩, answer := "TROUT" },
      { id := ⟨2⟩, name := "Crab", round := ⟨1⟩ },
      { id := ⟨9⟩, name := "Lost", round := ⟨99⟩, answer := "FOUND" }]
    [{ id := ⟨1⟩, name := "Ocean" }, { id := ⟨3⟩, name := "Desert" }]

/-- The orphan is counted and nowhere to be found. -/
theorem the_lost_puzzle_is_counted :
    let b := ofEntities withOrphan Waiting.noon
    withOrphan.Keyed ∧ b.puzzle? ⟨9⟩ = none ∧
    (∃ r, b.round? ⟨1⟩ = some r ∧ r ∈ b.rounds ∧ r.total = 2 ∧ r.solved = 1 ∧
      (r.puzzles.filter (·.id = ⟨2⟩)).map (·.name) = ["Crab"]) ∧
    (∃ r, b.round? ⟨3⟩ = some r ∧ r.round.name = "Desert" ∧ r.total = 0) ∧
    b.puzzleCount = 3 ∧ (b.rounds.map (·.total)).sum = 2 ∧
    b.solvedCount = 2 ∧ (b.rounds.map (·.solved)).sum = 1 := by
  intro b
  have hkeyed : withOrphan.Keyed := Entities.keyed_ofLists _ _
  obtain ⟨-, -, hown, hpuzzle, hround, hfound, hcounts, hsize, htotals, hsolved, hsolveds⟩ :=
    each_puzzle_stands_once_in_its_own_round Waiting.noon hkeyed
  have hlost : b.puzzle? ⟨9⟩ = none := (hpuzzle _).trans (by decide)
  obtain ⟨ocean, hocean, hoceanRound⟩ := Option.map_eq_some_iff.1
    ((hround ⟨1⟩).trans (show _ = some { id := ⟨1⟩, name := "Ocean" } by decide))
  obtain ⟨desert, hdesert, hdesertRound⟩ := Option.map_eq_some_iff.1
    ((hround ⟨3⟩).trans (show _ = some { id := ⟨3⟩, name := "Desert" } by decide))
  have hmem : ocean ∈ b.rounds := ((hfound _ _).1 hocean).1
  obtain ⟨htotal, hocean_solved⟩ := hcounts ocean hmem
  have hcrab := hown ocean hmem ⟨2⟩
  have hnone := (hcounts desert ((hfound _ _).1 hdesert).1).1
  rw [hoceanRound] at htotal hocean_solved hcrab
  rw [hdesertRound] at hnone
  have horphans : withOrphan.orphans.length = 1 ∧
      withOrphan.orphans.countP Puzzle.isSolved = 1 := by decide
  rw [horphans.1] at htotals
  rw [horphans.2] at hsolveds
  have hthree : b.puzzleCount = 3 := hsize.trans (by decide)
  have htwo : b.solvedCount = 2 := hsolved.trans (by decide)
  refine ⟨hkeyed, hlost, ⟨ocean, hocean, hmem, htotal.trans (by decide),
    hocean_solved.trans (by decide), ?_⟩, ⟨desert, hdesert, ?_, hnone.trans (by decide)⟩,
    hthree, ?_, htwo, ?_⟩
  · rw [hcrab]
    decide
  · rw [hdesertRound]
  · exact Nat.succ.inj (htotals.symm.trans hthree)
  · exact Nat.succ.inj (hsolveds.symm.trans htwo)

end Board

end HuntBoard
