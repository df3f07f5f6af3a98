-- A board stands until a reminder falls due. Time passing does nothing to a board but move puzzles
-- whose reminders fall due, among those that are metas as they are, or not.
import HuntBoard.Proofs.Completion

namespace HuntBoard

/-! ## Reminders that fall due -/

theorem Instant.notAfter_trans {a b c : Instant} (hab : a.notAfter b) (hbc : b.notAfter c) :
    a.notAfter c := by
  rw [notAfter_iff] at *
  intro hca
  by_cases hba : b = a
  · exact hbc (hba ▸ hca)
  · have hlt : a.before b := by
      by_contra hlt
      exact hba (eq_of_not_before hab hlt)
    exact hbc (before_trans hca hlt)

namespace Puzzle

variable {t₁ t₂ : Instant} {a b : Puzzle}

/-- The reminder of a puzzle falls due behind one instant, and no later than at another. -/
def FallsDue (t₁ t₂ : Instant) (p : Puzzle) : Prop :=
  ∃ t, p.reminder = some t ∧ t₁.before t ∧ t.notAfter t₂

instance (t₁ t₂ : Instant) (p : Puzzle) : Decidable (p.FallsDue t₁ t₂) :=
  inferInstanceAs (Decidable (∃ t ∈ p.reminder, t₁.before t ∧ t.notAfter t₂))

/-- A puzzle stays in its group while its reminder does not fall due. -/
theorem group_eq_of_quiet (h : t₁.notAfter t₂) (ha : ¬ a.FallsDue t₁ t₂) :
    a.group t₁ = a.group t₂ := by
  unfold group
  cases hreminder : a.reminder with
  | none => rfl
  | some t =>
    dsimp only
    by_cases hdue : t.notAfter t₁
    · rw [if_pos hdue, if_pos (Instant.notAfter_trans hdue h)]
    · have hahead : t₁.before t := by
        rw [Instant.notAfter_iff, not_not] at hdue
        exact hdue
      rw [if_neg hdue, if_neg fun hlater => ha ⟨t, hreminder, hahead, hlater⟩]

theorem order_eq_of_quiet (h : t₁.notAfter t₂) (ha : ¬ a.FallsDue t₁ t₂)
    (hb : ¬ b.FallsDue t₁ t₂) : a.order t₁ b = a.order t₂ b := by
  unfold order
  rw [group_eq_of_quiet h ha, group_eq_of_quiet h hb]

/-- Time has no say in the order of a meta and another puzzle. -/
theorem order_eq_of_isMeta_ne (t₁ t₂ : Instant) (h : a.isMeta ≠ b.isMeta) :
    a.order t₁ b = a.order t₂ b := by
  unfold order
  cases ha : a.isMeta <;> cases hb : b.isMeta
  · exact absurd (ha.trans hb.symm) h
  · rfl
  · rfl
  · exact absurd (ha.trans hb.symm) h

end Puzzle

/-! ## Pairs in sorted lists -/

namespace Board

section

variable {α : Type} {l : List α} {a b : α}

/-- Of two members of a list, one stands before the other. -/
theorem pair_sublist_or (ha : a ∈ l) (hb : b ∈ l) (hne : a ≠ b) :
    [a, b].Sublist l ∨ [b, a].Sublist l := by
  obtain ⟨l₁, l₂, rfl⟩ := List.append_of_mem ha
  rcases List.mem_append.1 hb with hb | hb
  · right
    exact (List.singleton_sublist.2 hb).append (List.singleton_sublist.2 (List.mem_cons_self ..))
  · left
    have hb : b ∈ l₂ := (List.mem_cons.1 hb).resolve_left (Ne.symm hne)
    have hpair : [a, b].Sublist (a :: l₂) := (List.singleton_sublist.2 hb).cons_cons a
    exact hpair.trans (List.sublist_append_right ..)

variable {cmp cmp' : α → α → Ordering} [Std.TransCmp cmp] [Std.TransCmp cmp']

/-- Sorting leaves things that are alike as they stand. -/
theorem filter_sorted {p : α → Bool} (l : List α) (h : ∀ x y, p x → p y → cmp x y = .eq) :
    (l.mergeSort (inOrder cmp)).filter p = l.filter p := by
  have hkept : (l.filter p).Sublist (l.mergeSort (inOrder cmp)) := by
    apply List.sublist_mergeSort inOrder_trans inOrder_total _ List.filter_sublist
    apply List.pairwise_of_forall_mem_list
    intro x hx y hy
    rw [inOrder_iff, h x y (List.mem_filter.1 hx).2 (List.mem_filter.1 hy).2]
    rfl
  have hself : (l.filter p).filter p = l.filter p :=
    List.filter_eq_self.2 fun x hx => (List.mem_filter.1 hx).2
  have hsub := hkept.filter p
  rw [hself] at hsub
  exact (hsub.eq_of_length ((List.mergeSort_perm ..).filter p).length_eq.symm).symm

theorem pair_sublist_of_sorted (h : [a, b].Sublist (l.mergeSort (inOrder cmp)))
    (hab : cmp a b = .eq) : [a, b].Sublist l := by
  have halike : ∀ x y, cmp a x == .eq → cmp a y == .eq → cmp x y = .eq := by
    intro x y hx hy
    rw [beq_iff_eq] at hx hy
    exact Std.TransCmp.eq_trans (Std.OrientedCmp.eq_symm hx) hy
  have hpair := h.filter (cmp a · == .eq)
  have haa : cmp a a = .eq := Std.ReflCmp.compare_self
  rw [filter_sorted l halike, List.filter_eq_self.2 (by simp [haa, hab])] at hpair
  exact hpair.trans List.filter_sublist

/-- Two things that another comparison does not tell apart otherwise stand one before the other
as they did. -/
theorem pair_sublist_of_agree (h : [a, b].Sublist (l.mergeSort (inOrder cmp)))
    (hagree : cmp a b = cmp' a b) : [a, b].Sublist (l.mergeSort (inOrder cmp')) := by
  have hle : (cmp a b).isLE := List.pairwise_iff_forall_sublist.1 (pairwise_sorted l) h
  cases hab : cmp a b with
  | gt => simp [hab] at hle
  | eq =>
    have hle' : inOrder cmp' a b := by
      rw [inOrder_iff, ← hagree, hab]
      rfl
    exact List.pair_sublist_mergeSort inOrder_trans inOrder_total hle'
      (pair_sublist_of_sorted h hab)
  | lt =>
    have hmem : ∀ x ∈ [a, b], x ∈ l.mergeSort (inOrder cmp') := fun x hx =>
      List.mem_mergeSort.2 (List.mem_mergeSort.1 (h.subset hx))
    have hne : a ≠ b := by
      rintro rfl
      have haa : cmp a a = .eq := Std.ReflCmp.compare_self
      simp [haa] at hab
    rcases pair_sublist_or (hmem a (by simp)) (hmem b (by simp)) hne with hkept | hturned
    · exact hkept
    · have hle' : (cmp' b a).isLE :=
        List.pairwise_iff_forall_sublist.1 (pairwise_sorted l) hturned
      rw [Std.OrientedCmp.gt_iff_lt.2 (hagree.symm.trans hab)] at hle'
      simp at hle'

end

end Board

/-! ## Boards at two times -/

/-- Two boards of one round have the same puzzles and tell the same of them. Where a puzzle stands
before another on the first, it does so on the second too, or the two may have been moved. -/
structure RoundBoard.AlikeBut (mayMove : Puzzle → Puzzle → Prop) (b c : RoundBoard) : Prop where
  round : c.round = b.round
  puzzles : c.puzzles.Perm b.puzzles
  total : c.total = b.total
  solved : c.solved = b.solved
  complete : c.complete = b.complete
  pairs {p q : Puzzle} (h : [p, q].Sublist b.puzzles) : [p, q].Sublist c.puzzles ∨ mayMove p q

/-- Two puzzles are both metas or both not, and the reminder of one of them falls due. -/
def MayMove (t₁ t₂ : Instant) (p q : Puzzle) : Prop :=
  p.isMeta = q.isMeta ∧ (p.FallsDue t₁ t₂ ∨ q.FallsDue t₁ t₂)

namespace Board

variable {s : Entities} {t₁ t₂ : Instant}

theorem roundBoard_alikeBut (h : t₁.notAfter t₂) (r : Round) (own : List Puzzle) :
    (roundBoard t₁ r own).AlikeBut (MayMove t₁ t₂) (roundBoard t₂ r own) := by
  have hperm : (roundBoard t₂ r own).puzzles.Perm (roundBoard t₁ r own).puzzles :=
    (roundBoard_perm t₂ r own).trans (roundBoard_perm t₁ r own).symm
  refine ⟨rfl, hperm, hperm.length_eq, hperm.countP_eq _, RoundBoard.complete_of_perm hperm, ?_⟩
  intro p q hpq
  by_cases hmove : MayMove t₁ t₂ p q
  · exact .inr hmove
  · left
    apply pair_sublist_of_agree hpq
    by_cases hmeta : p.isMeta = q.isMeta
    · have hquiet : ¬ (p.FallsDue t₁ t₂ ∨ q.FallsDue t₁ t₂) := fun hdue => hmove ⟨hmeta, hdue⟩
      rw [not_or] at hquiet
      exact Puzzle.order_eq_of_quiet h hquiet.1 hquiet.2
    · exact Puzzle.order_eq_of_isMeta_ne t₁ t₂ hmeta

theorem roundBoard_eq_of_quiet (h : t₁.notAfter t₂) (r : Round) {own : List Puzzle}
    (hquiet : ∀ p ∈ own, ¬ p.FallsDue t₁ t₂) : roundBoard t₁ r own = roundBoard t₂ r own := by
  have hsame : ∀ p ∈ own, ∀ q ∈ own, (id p).order t₂ (id q) = p.order t₁ q := fun p hp q hq =>
    (Puzzle.order_eq_of_quiet h (hquiet p hp) (hquiet q hq)).symm
  have hboard := roundBoard_map r hsame
  rw [List.map_id, List.map_id] at hboard
  exact hboard.symm

attribute [ext] Board

/-- A board stands while no reminder on it falls due. -/
theorem ofEntities_eq_of_quiet (h : t₁.notAfter t₂)
    (hquiet : ∀ p ∈ s.puzzles.values, (∃ r ∈ s.rounds.values, r.id = p.round) →
      ¬ p.FallsDue t₁ t₂) : ofEntities s t₁ = ofEntities s t₂ := by
  have hrounds : (ofEntities s t₁).rounds = (ofEntities s t₂).rounds := by
    rw [rounds_eq, rounds_eq]
    apply List.map_congr_left
    intro x hx
    obtain ⟨hround, hown⟩ := mem_shares (List.mem_mergeSort.1 hx)
    apply roundBoard_eq_of_quiet h
    intro p hp
    obtain ⟨hp, hid⟩ := hown p hp
    exact hquiet p hp ⟨x.1, hround, hid.symm⟩
  apply Board.ext hrounds
  · rw [puzzleCount_ofEntities, puzzleCount_ofEntities]
  · rw [solvedCount_ofEntities, solvedCount_ofEntities]

/-- Until a reminder of a puzzle on it falls due a board stands as it is. And whatever falls due,
the rounds stay in their order, and have the same puzzles and the same numbers, each round is
complete or not as before, and two puzzles do not change places but when both are metas or both
are not, and the reminder of one of them fell due. -/
theorem a_board_stands_until_a_reminder_falls_due (s : Entities) {t₁ t₂ : Instant}
    (h : t₁.notAfter t₂) :
    let b := ofEntities s t₁
    let c := ofEntities s t₂
    ((∀ p ∈ s.puzzles.values, (∃ r ∈ s.rounds.values, r.id = p.round) → ¬ p.FallsDue t₁ t₂) →
      b = c) ∧
    List.Forall₂ (RoundBoard.AlikeBut (MayMove t₁ t₂)) b.rounds c.rounds ∧
    c.puzzleCount = b.puzzleCount ∧ c.solvedCount = b.solvedCount := by
  intro b c
  have hcount : c.puzzleCount = b.puzzleCount :=
    (puzzleCount_ofEntities s t₂).trans (puzzleCount_ofEntities s t₁).symm
  have hsolved : c.solvedCount = b.solvedCount :=
    (solvedCount_ofEntities s t₂).trans (solvedCount_ofEntities s t₁).symm
  refine ⟨fun hquiet => ofEntities_eq_of_quiet h hquiet, ?_, hcount, hsolved⟩
  have hb : b.rounds = _ := rounds_eq s t₁
  have hc : c.rounds = _ := rounds_eq s t₂
  rw [hb, hc, List.forall₂_map_left_iff, List.forall₂_map_right_iff, List.forall₂_same]
  intro x _
  exact roundBoard_alikeBut h x.1 x.2

/-- A second before the evening. -/
def dusk : Instant :=
  { Waiting.noon with second := 64799, second_lt := by decide, leap_at_end := by decide }

def alpha : Puzzle :=
  { id := ⟨2⟩, name := "alpha", round := ⟨1⟩, reminder := some Waiting.evening }

def bravo : Puzzle := { id := ⟨5⟩, name := "bravo", round := ⟨1⟩ }

/-- No reminder falls due at the harbour before the evening, and one does then. Its puzzle may move
among those without a reminder, and does: they stood before it until then. -/
theorem the_harbour_stands_until_the_evening :
    soon.notAfter dusk ∧ ofEntities harbour soon = ofEntities harbour dusk ∧
    dusk.notAfter Waiting.evening ∧
    List.Forall₂ (RoundBoard.AlikeBut (MayMove dusk Waiting.evening))
      (ofEntities harbour dusk).rounds (ofEntities harbour Waiting.evening).rounds ∧
    (∀ p ∈ harbour.puzzles.values, p.FallsDue dusk Waiting.evening ↔ p = alpha) ∧
    bravo ∈ harbour.puzzles.values ∧ bravo.Precedes dusk alpha ∧
    alpha.Precedes Waiting.evening bravo := by
  have hquiet : soon.notAfter dusk := by decide
  have hevening : dusk.notAfter Waiting.evening := by decide
  obtain ⟨hstands, -⟩ := a_board_stands_until_a_reminder_falls_due harbour hquiet
  obtain ⟨-, halike, -⟩ := a_board_stands_until_a_reminder_falls_due harbour hevening
  have hnone : ∀ p ∈ harbour.puzzles.values, ¬ p.FallsDue soon dusk := by decide
  have hone : ∀ p ∈ harbour.puzzles.values, p.FallsDue dusk Waiting.evening ↔ p = alpha := by
    decide
  exact ⟨hquiet, hstands fun p hp _ => hnone p hp, hevening, halike, hone, by decide, by decide,
    by decide⟩

end Board

/-- So the board of a tab that waits is right at any later time, until a reminder of what it has
falls due. -/
theorem Waiting.UpToDate.stands {w : Waiting} (hw : w.UpToDate) {later : Instant}
    (h : w.madeAt.notAfter later)
    (hquiet : ∀ p ∈ w.tab.shown.puzzles.values,
      (∃ r ∈ w.tab.shown.rounds.values, r.id = p.round) → ¬ p.FallsDue w.madeAt later) :
    w.tab.board = .ofEntities w.tab.shown later := by
  rw [hw.board]
  exact Board.ofEntities_eq_of_quiet h hquiet

end HuntBoard
