-- When a round is complete, and that it stays so. A round needs its metas solved, or all of its
-- puzzles if it has none; an answer that is filled in never takes anything back.
import HuntBoard.Proofs.BoardOrder

namespace HuntBoard

theorem Puzzle.isSolved_iff {p : Puzzle} : p.isSolved ↔ p.answer ≠ "" := by
  unfold isSolved
  rw [Bool.not_eq_true', ← Bool.not_eq_true, String.isEmpty_iff]

/-! ## The puzzles that a round needs -/

namespace RoundBoard

variable {b : RoundBoard}

theorem mem_needed {p : Puzzle} :
    p ∈ b.needed ↔ p ∈ b.puzzles ∧ (p.isMeta ∨ ∀ q ∈ b.puzzles, q.isMeta = false) := by
  unfold needed
  split
  · rename_i hmeta
    obtain ⟨q, hq, hqmeta⟩ := List.any_eq_true.1 hmeta
    rw [List.mem_filter]
    constructor
    · rintro ⟨hp, hpmeta⟩
      exact ⟨hp, .inl hpmeta⟩
    · rintro ⟨hp, hpmeta | hnone⟩
      · exact ⟨hp, hpmeta⟩
      · simp [hnone q hq] at hqmeta
  · rename_i hmeta
    constructor
    · intro hp
      exact ⟨hp, .inr (by simpa using hmeta)⟩
    · intro hp
      exact hp.1

theorem complete_iff :
    b.complete ↔ b.puzzles ≠ [] ∧
      ∀ p ∈ b.puzzles, (p.isMeta ∨ ∀ q ∈ b.puzzles, q.isMeta = false) → p.isSolved := by
  unfold complete
  rw [Bool.and_eq_true, Bool.not_eq_true', List.isEmpty_eq_false_iff, List.all_eq_true]
  simp only [mem_needed, and_imp]

/-- Without metas a round is complete when it has puzzles and all of them are solved. -/
theorem complete_iff_of_no_meta (h : ∀ p ∈ b.puzzles, p.isMeta = false) :
    b.complete ↔ 0 < b.total ∧ b.solved = b.total := by
  unfold solved total
  rw [complete_iff, List.countP_eq_length, List.length_pos_iff]
  constructor
  · rintro ⟨hne, hsolved⟩
    exact ⟨hne, fun p hp => hsolved p hp (.inr h)⟩
  · rintro ⟨hne, hsolved⟩
    exact ⟨hne, fun p hp _ => hsolved p hp⟩

/-- It does not matter in which order the puzzles stand. -/
theorem complete_of_perm {c : RoundBoard} (h : c.puzzles.Perm b.puzzles) :
    c.complete = b.complete := by
  have hne : c.puzzles ≠ [] ↔ b.puzzles ≠ [] := by
    rw [← List.length_pos_iff, ← List.length_pos_iff, h.length_eq]
  rw [Bool.eq_iff_iff, complete_iff, complete_iff, hne]
  simp only [h.mem_iff]

end RoundBoard

/-! ## The puzzles of a known round -/

namespace Entities

/-- The puzzles of a state that belong to a round. -/
def puzzlesOf (s : Entities) (r : Round) : List Puzzle := s.puzzles.values.filter (·.round = r.id)

/-- A round needs a puzzle of its own if that is a meta, or if the round has no metas. -/
def Needs (s : Entities) (r : Round) (p : Puzzle) : Prop :=
  p.isMeta ∨ ∀ q ∈ s.puzzlesOf r, q.isMeta = false

instance (s : Entities) (r : Round) (p : Puzzle) : Decidable (s.Needs r p) :=
  inferInstanceAs (Decidable (_ ∨ _))

end Entities

namespace Board

theorem shares_eq_map {puzzles : List Puzzle} {rounds : List Round}
    (h : (rounds.map (·.id)).Nodup) :
    shares puzzles rounds = rounds.map fun r => (r, puzzles.filter (·.round = r.id)) := by
  induction rounds generalizing puzzles with
  | nil => rfl
  | cons r rounds ih =>
    rw [List.map_cons, List.nodup_cons] at h
    rw [shares, ih h.2, List.map_cons]
    congr 1
    apply List.map_congr_left
    intro other hmem
    have hne : other.id ≠ r.id := fun heq => h.1 (heq ▸ List.mem_map_of_mem hmem)
    rw [List.filter_filter]
    congr 1
    apply List.filter_congr
    intro p _
    by_cases hp : p.round = other.id <;> simp [hp, hne]

/-- The rounds of a board are the known rounds, each with its own puzzles. -/
theorem mem_rounds_iff {s : Entities} (hs : s.rounds.All fun id r => r.id = id) (now : Instant)
    {b : RoundBoard} :
    b ∈ (ofEntities s now).rounds ↔
      ∃ r ∈ s.rounds.values, b = roundBoard now r (s.puzzlesOf r) := by
  have hids : (s.rounds.values.map (·.id)).Nodup := by
    rw [KeyedMap.map_values hs]
    exact s.rounds.keys_nodup
  unfold Entities.puzzlesOf
  rw [rounds_eq, shared, shares_eq_map hids, List.mem_map]
  constructor
  · rintro ⟨x, hx, rfl⟩
    obtain ⟨r, hr, rfl⟩ := List.mem_map.1 (List.mem_mergeSort.1 hx)
    exact ⟨r, hr, rfl⟩
  · rintro ⟨r, hr, rfl⟩
    exact ⟨_, List.mem_mergeSort.2 (List.mem_map_of_mem hr), rfl⟩

end Board

/-! ## Filling in answers -/

namespace KeyedMap

variable {κ α β : Type} [Ord κ]

/-- The map with something done to each of its values. -/
def mapValues (f : α → β) (m : KeyedMap κ α) : KeyedMap κ β where
  toList := m.toList.map fun e => (e.1, f e.2)
  ascending := by
    unfold Entries.Ascending
    rw [List.pairwise_map]
    exact m.ascending

@[simp] theorem values_mapValues (f : α → β) (m : KeyedMap κ α) :
    (m.mapValues f).values = m.values.map f := by
  unfold values mapValues
  rw [List.map_map, List.map_map]
  rfl

end KeyedMap

variable {answers : PuzzleId → String}

/-- A puzzle with an answer, if it has none. -/
def Puzzle.fillIn (answers : PuzzleId → String) (p : Puzzle) : Puzzle :=
  if p.answer.isEmpty then { p with answer := answers p.id } else p

/-- A state in which puzzles without an answer get one. The empty text is none. -/
def Entities.fillIn (answers : PuzzleId → String) (s : Entities) : Entities :=
  { s with puzzles := s.puzzles.mapValues (Puzzle.fillIn answers) }

def RoundBoard.fillIn (answers : PuzzleId → String) (b : RoundBoard) : RoundBoard :=
  { b with puzzles := b.puzzles.map (Puzzle.fillIn answers) }

namespace Puzzle

/-- Nothing but the answer is filled in. -/
theorem fillIn_eq (answers : PuzzleId → String) (p : Puzzle) :
    p.fillIn answers = { p with answer := (p.fillIn answers).answer } := by
  unfold fillIn
  split <;> rfl

@[simp] theorem fillIn_round (p : Puzzle) : (p.fillIn answers).round = p.round := by
  rw [fillIn_eq]

@[simp] theorem fillIn_isMeta (p : Puzzle) : (p.fillIn answers).isMeta = p.isMeta := by
  rw [fillIn_eq]

/-- Answers have no part in the order. -/
theorem fillIn_order (now : Instant) (p q : Puzzle) :
    (p.fillIn answers).order now (q.fillIn answers) = p.order now q := by
  rw [fillIn_eq answers p, fillIn_eq answers q]
  rfl

theorem isSolved_fillIn {p : Puzzle} (h : p.isSolved) : (p.fillIn answers).isSolved := by
  have hanswer : ¬ p.answer.isEmpty := by simpa [isSolved] using h
  unfold fillIn
  rwa [if_neg hanswer]

end Puzzle

namespace RoundBoard

theorem complete_fillIn {b : RoundBoard} (h : b.complete) : (b.fillIn answers).complete := by
  rw [complete_iff] at h ⊢
  obtain ⟨hne, hsolved⟩ := h
  unfold fillIn
  simp only [List.forall_mem_map, Puzzle.fillIn_isMeta]
  refine ⟨by simpa using hne, ?_⟩
  intro p hp hneeded
  exact Puzzle.isSolved_fillIn (hsolved p hp hneeded)

theorem solved_le_fillIn (b : RoundBoard) : b.solved ≤ (b.fillIn answers).solved := by
  unfold solved fillIn
  rw [List.countP_map]
  exact List.countP_mono_left fun p _ hp => Puzzle.isSolved_fillIn hp

end RoundBoard

namespace Board

theorem shares_map_fillIn (puzzles : List Puzzle) (rounds : List Round) :
    shares (puzzles.map (Puzzle.fillIn answers)) rounds =
      (shares puzzles rounds).map fun x => (x.1, x.2.map (Puzzle.fillIn answers)) := by
  induction rounds generalizing puzzles with
  | nil => rfl
  | cons r rounds ih =>
    have hround : ∀ test : RoundId → Bool,
        (puzzles.map (Puzzle.fillIn answers)).filter (fun p => test p.round) =
          (puzzles.filter fun p => test p.round).map (Puzzle.fillIn answers) := by
      intro test
      rw [List.filter_map]
      congr 1
      apply List.filter_congr
      intro p _
      rw [Function.comp_apply, Puzzle.fillIn_round]
    rw [shares, shares, List.map_cons, hround fun id => decide (id = r.id),
      hround fun id => decide (id ≠ r.id), ih]

theorem shared_fillIn (s : Entities) :
    shared (s.fillIn answers) =
      (shared s).map fun x => (x.1, x.2.map (Puzzle.fillIn answers)) := by
  unfold shared Entities.fillIn
  rw [KeyedMap.values_mapValues, shares_map_fillIn]
  symm
  apply List.map_mergeSort
  intro x _ y _
  rfl

theorem roundBoard_fillIn (now : Instant) (r : Round) (own : List Puzzle) :
    roundBoard now r (own.map (Puzzle.fillIn answers)) =
      (roundBoard now r own).fillIn answers :=
  roundBoard_map r fun p _ q _ => Puzzle.fillIn_order now p q

/-- The answers are filled in on the board, and all else on it stays in place. -/
theorem rounds_fillIn (s : Entities) (now : Instant) :
    (ofEntities (s.fillIn answers) now).rounds =
      (ofEntities s now).rounds.map (RoundBoard.fillIn answers) := by
  rw [rounds_eq, rounds_eq, shared_fillIn, List.map_map, List.map_map]
  apply List.map_congr_left
  intro x _
  exact roundBoard_fillIn now x.1 x.2

theorem solvedCount_le_fillIn (s : Entities) (now : Instant) :
    (ofEntities s now).solvedCount ≤ (ofEntities (s.fillIn answers) now).solvedCount := by
  unfold Entities.fillIn
  rw [solvedCount_ofEntities, solvedCount_ofEntities, KeyedMap.values_mapValues, List.countP_map]
  exact List.countP_mono_left fun p _ hp => Puzzle.isSolved_fillIn hp

/-! ## The law -/

section

variable {s : Entities} (hs : s.rounds.All fun id r => r.id = id) {now : Instant} {b : RoundBoard}

include hs

theorem complete_of_mem (hb : b ∈ (ofEntities s now).rounds) :
    b.complete ↔ s.puzzlesOf b.round ≠ [] ∧
      ∀ p ∈ s.puzzlesOf b.round, s.Needs b.round p → p.answer ≠ "" := by
  obtain ⟨r, -, rfl⟩ := (mem_rounds_iff hs now).1 hb
  have hperm := roundBoard_perm now r (s.puzzlesOf r)
  rw [RoundBoard.complete_iff, ← List.length_pos_iff, hperm.length_eq, List.length_pos_iff]
  simp only [hperm.mem_iff, Puzzle.isSolved_iff]
  rfl

theorem complete_of_mem_of_no_meta (hb : b ∈ (ofEntities s now).rounds)
    (hnone : ∀ p ∈ s.puzzlesOf b.round, p.isMeta = false) :
    b.complete ↔ 0 < b.total ∧ b.solved = b.total := by
  obtain ⟨r, -, rfl⟩ := (mem_rounds_iff hs now).1 hb
  apply RoundBoard.complete_iff_of_no_meta
  intro p hp
  exact hnone p ((roundBoard_perm now r _).mem_iff.1 hp)

end

/-- Every known round has a board, which is complete just when there are puzzles of the round and
those that it needs have answers; without metas, when it has puzzles and counts all as solved. To
fill in answers where there are none, of whichever puzzles, leaves every complete round complete
and lowers no number of solved puzzles. -/
theorem a_round_needs_its_metas_or_all_and_stays_complete (s : Entities) (now : Instant) :
    (s.rounds.All (fun id r => r.id = id) →
      (∀ r ∈ s.rounds.values, ∃ b ∈ (ofEntities s now).rounds, b.round = r) ∧
      ∀ b ∈ (ofEntities s now).rounds,
        (b.complete ↔ s.puzzlesOf b.round ≠ [] ∧
          ∀ p ∈ s.puzzlesOf b.round, s.Needs b.round p → p.answer ≠ "") ∧
        ((∀ p ∈ s.puzzlesOf b.round, p.isMeta = false) →
          (b.complete ↔ 0 < b.total ∧ b.solved = b.total))) ∧
    ∀ answers, let filled := ofEntities (s.fillIn answers) now
      List.Forall₂ (fun b c : RoundBoard => c.round = b.round ∧ (b.complete → c.complete) ∧
        b.solved ≤ c.solved) (ofEntities s now).rounds filled.rounds ∧
      (ofEntities s now).solvedCount ≤ filled.solvedCount := by
  refine ⟨?_, ?_⟩
  · intro hs
    refine ⟨?_, fun b hb => ⟨complete_of_mem hs hb, complete_of_mem_of_no_meta hs hb⟩⟩
    intro r hr
    exact ⟨_, (mem_rounds_iff hs now).2 ⟨r, hr, rfl⟩, rfl⟩
  · intro answers filled
    refine ⟨?_, solvedCount_le_fillIn s now⟩
    have hrounds : filled.rounds = _ := rounds_fillIn s now
    rw [hrounds, List.forall₂_map_right_iff, List.forall₂_same]
    intro b _
    exact ⟨rfl, RoundBoard.complete_fillIn, b.solved_le_fillIn⟩

def ocean : Round := { id := ⟨1⟩, name := "Ocean" }

def desert : Round := { id := ⟨2⟩, name := "Desert" }

def void : Round := { id := ⟨3⟩, name := "Void" }

/-- A round with a solved meta and another puzzle, one with two puzzles of which one is solved, and
one without puzzles. -/
def halfWay : Entities :=
  .ofLists
    [{ id := ⟨1⟩, name := "Whale", round := ⟨1⟩, isMeta := true, answer := "BALEEN" },
      { id := ⟨2⟩, name := "Krill", round := ⟨1⟩ },
      { id := ⟨3⟩, name := "Dune", round := ⟨2⟩, answer := "SAND" },
      { id := ⟨4⟩, name := "Oasis", round := ⟨2⟩ }]
    [ocean, desert, void]

/-- The meta makes the first round complete. The second is so once its last answer is filled in;
the third never is. -/
theorem the_desert_waits_for_the_oasis :
    let board := ofEntities halfWay Waiting.noon
    let watered := halfWay.fillIn fun _ => "WATER"
    let filled := ofEntities watered Waiting.noon
    (halfWay.rounds.All fun id r => r.id = id) ∧
    (∃ b ∈ board.rounds, b.round = ocean ∧ b.complete) ∧
    (∃ b ∈ board.rounds, b.round = desert ∧ ¬ b.complete ∧ ¬ (0 < b.total ∧ b.solved = b.total)) ∧
    (∃ b ∈ filled.rounds, b.round = desert ∧ b.complete ∧ 0 < b.total ∧ b.solved = b.total) ∧
    (∃ b ∈ filled.rounds, b.round = void ∧ ¬ b.complete) ∧
    board.solvedCount ≤ filled.solvedCount := by
  intro board watered filled
  have hkeyed : halfWay.rounds.All fun id r => r.id = id := (Entities.keyed_ofLists _ _).rounds
  obtain ⟨hboard, hfill⟩ := a_round_needs_its_metas_or_all_and_stays_complete halfWay Waiting.noon
  obtain ⟨hfilled, -⟩ := a_round_needs_its_metas_or_all_and_stays_complete watered Waiting.noon
  obtain ⟨hfind, htells⟩ := hboard hkeyed
  obtain ⟨hfindFilled, htellsFilled⟩ := hfilled hkeyed
  refine ⟨hkeyed, ?_, ?_, ?_, ?_, (hfill _).2⟩
  · obtain ⟨b, hb, hround⟩ := hfind ocean (by decide)
    obtain ⟨hcomplete, -⟩ := htells b hb
    rw [hround] at hcomplete
    exact ⟨b, hb, hround, hcomplete.2 (by decide)⟩
  · obtain ⟨b, hb, hround⟩ := hfind desert (by decide)
    obtain ⟨hcomplete, hall⟩ := htells b hb
    rw [hround] at hcomplete hall
    have hnot : ¬ b.complete := fun h => absurd (hcomplete.1 h) (by decide)
    exact ⟨b, hb, hround, hnot, fun h => hnot ((hall (by decide)).2 h)⟩
  · obtain ⟨b, hb, hround⟩ := hfindFilled desert (by decide)
    obtain ⟨hcomplete, hall⟩ := htellsFilled b hb
    rw [hround] at hcomplete hall
    have hdone : b.complete := hcomplete.2 (by decide)
    exact ⟨b, hb, hround, hdone, (hall (by decide)).1 hdone⟩
  · obtain ⟨b, hb, hround⟩ := hfindFilled void (by decide)
    obtain ⟨hcomplete, -⟩ := htellsFilled b hb
    rw [hround] at hcomplete
    exact ⟨b, hb, hround, fun h => absurd (hcomplete.1 h) (by decide)⟩

end Board

end HuntBoard
