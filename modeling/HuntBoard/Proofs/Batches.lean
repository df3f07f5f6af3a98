-- Changes may come in batches. A batch does what its changes do one by one up to the first
-- that skips others, so it makes no difference where a list of changes is cut.
import HuntBoard.Proofs.Replica

namespace HuntBoard

/-! ## Answers -/

namespace Applied

/-- Changes before the one that was offered are missing. -/
def isDrift : Applied → Bool
  | .drift _ _ => true
  | _ => false

/-- The answer to two lists of changes, from the answer to each. -/
def andThen : Applied → Applied → Applied
  | .stale, later => later
  | .changed, .stale => .changed
  | .changed, later => later
  | .drift expected got, _ => .drift expected got

theorem andThen_assoc (a b c : Applied) : (a.andThen b).andThen c = a.andThen (b.andThen c) := by
  cases a <;> cases b <;> cases c <;> rfl

theorem isDrift_andThen (a b : Applied) : (a.andThen b).isDrift = (a.isDrift || b.isDrift) := by
  cases a <;> cases b <;> rfl

theorem andThen_of_isDrift {a b : Applied} (hb : b.isDrift) (ha : a.isDrift = false) :
    a.andThen b = b := by
  cases b with
  | drift expected got =>
    cases a with
    | drift => cases ha
    | _ => rfl
  | _ => cases hb

/-- Without a drift, two lists changed something if one of them did. -/
theorem andThen_eq_ite {a b : Applied} (ha : a.isDrift = false) (hb : b.isDrift = false) :
    a.andThen b = if a = .changed ∨ b = .changed then .changed else .stale := by
  cases a with
  | drift => cases ha
  | _ =>
    cases b with
    | drift => cases hb
    | _ => rfl

end Applied

namespace Replica

variable {r : Replica} {es : List SyncEvent}

/-! ## One batch after another -/

/-- Offer more changes behind those that came to an answer; behind a drift nothing is taken. -/
def applyMore (o : Replica × Applied) (es : List SyncEvent) : Replica × Applied :=
  if o.2.isDrift then o else ((o.1.applyAll es).1, o.2.andThen (o.1.applyAll es).2)

theorem applyAll_cons (r : Replica) (e : SyncEvent) (es : List SyncEvent) :
    r.applyAll (e :: es) = applyMore (r.apply e) es := by
  rw [applyAll]
  obtain ⟨r', answer⟩ := r.apply e
  cases answer with
  | drift expected got => rfl
  | stale => rfl
  | changed =>
    simp only [applyMore, Applied.isDrift, Bool.false_eq_true, ↓reduceIte]
    obtain ⟨last, answer⟩ := r'.applyAll es
    cases answer <;> rfl

theorem applyAll_append (r : Replica) (xs ys : List SyncEvent) :
    r.applyAll (xs ++ ys) = applyMore (r.applyAll xs) ys := by
  induction xs generalizing r with
  | nil => rfl
  | cons e xs ih =>
    rw [List.cons_append, applyAll_cons, applyAll_cons]
    cases hdrift : (r.apply e).2.isDrift with
    | true => simp only [applyMore, hdrift, ↓reduceIte]
    | false =>
      simp only [applyMore, hdrift, Bool.false_eq_true, ↓reduceIte, ih, Applied.isDrift_andThen,
        Bool.false_or]
      cases (((r.apply e).1.applyAll xs).2).isDrift with
      | true => rfl
      | false => simp only [Bool.false_eq_true, ↓reduceIte, Applied.andThen_assoc]

/-! ## Lists without a drift -/

/-- What becomes of changes that are offered one by one. -/
def answers (r : Replica) : List SyncEvent → List Applied
  | [] => []
  | e :: es => (r.apply e).2 :: (r.apply e).1.answers es

/-- None of the changes skips others when its turn comes. -/
def DriftFree (r : Replica) (es : List SyncEvent) : Prop := ∀ a ∈ r.answers es, a.isDrift = false

instance (r : Replica) (es : List SyncEvent) : Decidable (r.DriftFree es) :=
  inferInstanceAs (Decidable (∀ a ∈ r.answers es, a.isDrift = false))

theorem driftFree_cons {e : SyncEvent} :
    r.DriftFree (e :: es) ↔ (r.apply e).2.isDrift = false ∧ (r.apply e).1.DriftFree es :=
  List.forall_mem_cons

/-- A batch without a drift does what its changes do one by one. -/
theorem DriftFree.applyAll (h : r.DriftFree es) :
    (r.applyAll es).1 = r.offered es ∧ (r.applyAll es).2.isDrift = false := by
  induction es generalizing r with
  | nil => exact ⟨rfl, rfl⟩
  | cons e es ih =>
    obtain ⟨hfirst, hrest⟩ := driftFree_cons.1 h
    obtain ⟨hstate, hanswer⟩ := ih hrest
    rw [applyAll_cons, applyMore, if_neg (by simp [hfirst])]
    exact ⟨hstate, by rw [Applied.isDrift_andThen, hfirst, hanswer]; rfl⟩

theorem driftFree_append {xs ys : List SyncEvent} :
    r.DriftFree (xs ++ ys) ↔ r.DriftFree xs ∧ (r.offered xs).DriftFree ys := by
  induction xs generalizing r with
  | nil => simp [DriftFree, answers]
  | cons e xs ih => rw [List.cons_append, driftFree_cons, driftFree_cons, ih, offered_cons, and_assoc]

/-- The replica after changes came in batches, whatever it answered. -/
def takeBatches (r : Replica) (batches : List (List SyncEvent)) : Replica :=
  batches.foldl (fun r es => (r.applyAll es).1) r

theorem DriftFree.takeBatches {batches : List (List SyncEvent)} (h : r.DriftFree batches.flatten) :
    r.takeBatches batches = r.offered batches.flatten := by
  induction batches generalizing r with
  | nil => rfl
  | cons es batches ih =>
    rw [List.flatten_cons] at h ⊢
    obtain ⟨hfirst, hrest⟩ := driftFree_append.1 h
    have hstate : (r.applyAll es).1 = r.offered es := hfirst.applyAll.1
    rw [Replica.takeBatches, List.foldl_cons, hstate, offered_append]
    exact ih hrest

/-- After a list without a drift, the copy holds all of its changes. -/
theorem DriftFree.number_le {e : SyncEvent} (h : r.DriftFree es) (he : e ∈ es) :
    e.changeId.number ≤ (r.offered es).watermark.number := by
  induction es generalizing r with
  | nil => cases he
  | cons first es ih =>
    obtain ⟨hfirst, hrest⟩ := driftFree_cons.1 h
    rw [offered_cons]
    rcases List.mem_cons.1 he with rfl | he
    · refine Nat.le_trans ?_ (watermark_offered_le (r.apply e).1 es)
      rcases apply_cases r e with ⟨hle, heq⟩ | ⟨-, -, heq⟩ | ⟨-, -, heq⟩
      · rwa [heq]
      · rw [heq] at hfirst
        cases hfirst
      · simp only [heq, Nat.le_refl]
    · exact ih hrest he

/-! ## The law -/

/-- A batch that is cut in two: if the first part drifts, that is all there is; if not, the second
part goes on from where the first one ended, and the answers add up. So a list without a drift may
be cut into batches anywhere: it comes to what its changes come to one by one, and none of them
does anything when it comes again. -/
theorem a_list_of_changes_may_be_cut_anywhere (r : Replica) (xs ys : List SyncEvent) :
    let one := r.applyAll xs
    let two := one.1.applyAll ys
    (one.2.isDrift = true → r.applyAll (xs ++ ys) = one) ∧
    (one.2.isDrift = false → r.applyAll (xs ++ ys) =
      (two.1, if two.2.isDrift then two.2
        else if one.2 = .changed ∨ two.2 = .changed then .changed else .stale)) ∧
    ∀ batches : List (List SyncEvent), r.DriftFree batches.flatten →
      r.takeBatches batches = r.offered batches.flatten ∧
      ∀ e ∈ batches.flatten, (r.takeBatches batches).apply e = (r.takeBatches batches, .stale) := by
  intro one two
  have hmore : r.applyAll (xs ++ ys) = applyMore one ys := applyAll_append r xs ys
  refine ⟨fun hdrift => ?_, fun hone => ?_, fun batches hfree => ?_⟩
  · rw [hmore, applyMore, if_pos hdrift]
  · rw [hmore, applyMore, if_neg (by simp [hone])]
    change (two.1, one.2.andThen two.2) = _
    cases htwo : two.2.isDrift with
    | true => rw [Applied.andThen_of_isDrift htwo hone, if_pos rfl]
    | false => rw [Applied.andThen_eq_ite hone htwo, if_neg Bool.false_ne_true]
  · have hstate := hfree.takeBatches
    refine ⟨hstate, fun e he => ?_⟩
    rw [hstate]
    exact apply_stale (hfree.number_le he)

/-- A change that takes the puzzle of its number away. -/
def removal (id : UInt64) : SyncEvent := ⟨⟨id⟩, .deletePuzzle ⟨id.toInt64⟩⟩

/-- A copy at the fourth change that was told of a gap. -/
def gapped : Replica := { watermark := ⟨4⟩, gapAllowed := true }

/-- The first change that skips others uses the gap up: the next such one is a drift, and what
was skipped comes too late. -/
theorem the_gap_is_used_up_once :
    let batches := [[removal 3, removal 7], [], [removal 5, removal 8]]
    (gapped.applyAll ([removal 7, removal 9] ++ [removal 8])).2 = .drift ⟨8⟩ ⟨9⟩ ∧
    (gapped.applyAll ([removal 3, removal 7] ++ [removal 5, removal 8])).2 = .changed ∧
    gapped.DriftFree batches.flatten ∧
    gapped.takeBatches batches = gapped.offered [removal 3, removal 7, removal 5, removal 8] ∧
    (gapped.takeBatches batches).watermark = ⟨8⟩ ∧
    (gapped.takeBatches batches).apply (removal 5) = (gapped.takeBatches batches, .stale) := by
  intro batches
  have hdrift := (a_list_of_changes_may_be_cut_anywhere gapped [removal 7, removal 9] [removal 8]).1
    (by decide)
  have hcut := a_list_of_changes_may_be_cut_anywhere gapped [removal 3, removal 7] [removal 5, removal 8]
  have hjoined := hcut.2.1 (by decide)
  have hfree : gapped.DriftFree batches.flatten := by decide
  obtain ⟨hstate, hstale⟩ := hcut.2.2 batches hfree
  refine ⟨?_, ?_, hfree, hstate, ?_, hstale (removal 5) (by decide)⟩
  · rw [hdrift]
    decide
  · rw [hjoined]
    decide
  · rw [hstate]
    decide

end Replica

end HuntBoard
