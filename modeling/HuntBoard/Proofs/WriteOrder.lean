-- In which order a tab shows its writes, and which of them a watermark takes away. Whatever was
-- done to an overlay, the writes that the server accepted stand in front, by their change, and
-- behind them those under way, as they were made.
import HuntBoard.Proofs.Overlay
import Mathlib.Algebra.Group.Nat.Defs
import Mathlib.Data.List.Induction

namespace HuntBoard

/-! ## Keys -/

namespace WriteKey

/-- The keys of writes under way are those from the least of them on. -/
theorem isGE_compare_pending_zero (k : WriteKey) : (compare k (.pending 0)).isGE = k.isPending := by
  cases k with
  | confirmed c => rfl
  | pending n =>
    have hnot : ¬ n < 0 := UInt64.not_lt_zero
    have hge : compare (pending n) (.pending 0) ≠ .lt := fun h => hnot (compare_pending_eq_lt.1 h)
    unfold isPending
    cases hc : compare (pending n) (.pending 0) with
    | lt => exact absurd hc hge
    | eq => rfl
    | gt => rfl

theorem outlives_eq (w : ChangeId) (k : WriteKey) :
    Overlay.outlives w k = !k.changeId?.any (· ≤ w) := by
  cases k <;> rfl

end WriteKey

theorem ChangeId.le_max_iff (a b c : ChangeId) : c ≤ ⟨max a.val b.val⟩ ↔ c ≤ a ∨ c ≤ b := by
  have hmax : max a.val b.val = if a.val ≤ b.val then b.val else a.val := rfl
  simp only [le_iff, hmax]
  split <;> rename_i hab <;> rw [UInt64.le_iff_toNat_le] at hab <;> omega

namespace Overlay

variable (o : Overlay)

/-! ## Order and number -/

theorem pendingCount_eq : o.pendingCount = o.toList.countP (·.1.isPending) :=
  List.countP_eq_length_filter.symm

/-- Every write is under way or it was accepted. -/
theorem size_eq :
    o.size = o.toList.countP (·.1.isPending) + o.toList.countP (!·.1.isPending) := by
  change o.toList.length = _
  rw [List.length_eq_countP_add_countP fun x : WriteKey × Edit => x.1.isPending]
  simp

theorem confirmedCount_eq : o.confirmedCount = o.toList.countP (!·.1.isPending) := by
  unfold confirmedCount
  rw [size_eq, pendingCount_eq, Nat.add_sub_cancel_left]

/-- Writes that the server accepted stand by their change. -/
theorem changeIds_ascend : (o.toList.filterMap (·.1.changeId?)).Pairwise (· < ·) := by
  rw [List.pairwise_filterMap]
  refine o.edits.ascending.imp fun {x y} hxy c hc d hd => ?_
  obtain ⟨k, e⟩ := x
  obtain ⟨j, f⟩ := y
  cases k <;> cases j <;> simp [WriteKey.changeId?] at hc hd
  subst hc hd
  exact WriteKey.compare_confirmed_eq_lt.1 hxy

/-! ## Pruning -/

theorem pruneThrough_toList (w : ChangeId) :
    (o.pruneThrough w).1.toList = o.toList.filter fun x => !x.1.changeId?.any (· ≤ w) :=
  List.filter_congr fun x _ => WriteKey.outlives_eq w x.1

/-- The number that pruning tells is that of the writes it drops. -/
theorem size_pruneThrough (w : ChangeId) : (o.pruneThrough w).1.size + (o.pruneThrough w).2 = o.size := by
  have hle : (o.pruneThrough w).1.size ≤ o.size := List.length_filter_le ..
  have hnumber : (o.pruneThrough w).2 = o.size - (o.pruneThrough w).1.size := rfl
  omega

theorem pruneThrough_count (w : ChangeId) :
    (o.pruneThrough w).2 = o.toList.countP fun x => x.1.changeId?.any (· ≤ w) := by
  have hsplit := List.length_eq_countP_add_countP (l := o.toList)
    fun x : WriteKey × Edit => x.1.changeId?.any (· ≤ w)
  have hkept : (o.pruneThrough w).1.size = o.toList.countP fun x => !x.1.changeId?.any (· ≤ w) := by
    rw [List.countP_eq_length_filter, ← pruneThrough_toList]
    rfl
  have hall : o.size = o.toList.length := rfl
  have hsize := o.size_pruneThrough w
  simp only [Bool.not_eq_true, Bool.decide_eq_false] at hsplit
  omega

/-- Two watermarks prune what the higher of them prunes. -/
theorem pruneThrough_pruneThrough (a b : ChangeId) :
    ((o.pruneThrough a).1.pruneThrough b).1 = (o.pruneThrough ⟨max a.val b.val⟩).1 := by
  apply ext_get?
  · intro k
    simp only [get?_pruneThrough]
    cases k with
    | pending n => rfl
    | confirmed c =>
      by_cases ha : c ≤ a <;> by_cases hb : c ≤ b <;> simp [outlives, ChangeId.le_max_iff, ha, hb]
  · rfl

theorem pruneThrough_pruneThrough_count (a b : ChangeId) :
    (o.pruneThrough a).2 + ((o.pruneThrough a).1.pruneThrough b).2 =
      (o.pruneThrough ⟨max a.val b.val⟩).2 := by
  have hfirst := o.size_pruneThrough a
  have hsecond := (o.pruneThrough a).1.size_pruneThrough b
  have honce := o.size_pruneThrough ⟨max a.val b.val⟩
  rw [pruneThrough_pruneThrough] at hsecond
  omega

theorem pruneThrough_pendingPart (w : ChangeId) : (o.pruneThrough w).1.pendingPart = o.pendingPart :=
  pendingPart_congr fun n => by rw [get?_pruneThrough]; rfl

/-! ## What is done to an overlay -/

/-- What is done to an overlay. -/
inductive Act where
  | addPending (e : Edit)
  | confirm (c : ChangeId) (e : Edit) (watermark : ChangeId)
  | erase (key : WriteKey)
  | prune (watermark : ChangeId)
  deriving DecidableEq

def Act.adds : Act → Bool
  | addPending _ => true
  | _ => false

/-- An overlay after an act, and the key that the act gave out. -/
def take : Act → Overlay × Option WriteKey
  | .addPending e => ((o.addPending e).1, some (o.addPending e).2)
  | .confirm c e w => ((o.confirm c e w).1, none)
  | .erase key => (o.erase key, none)
  | .prune w => ((o.pruneThrough w).1, none)

/-- An empty overlay after acts, and the keys that they gave out, in order. -/
def run (acts : List Act) : Overlay × List WriteKey :=
  acts.foldl (fun o act => ((o.1.take act).1, o.2 ++ (o.1.take act).2.toList)) (empty, [])

theorem run_concat (acts : List Act) (act : Act) :
    run (acts ++ [act]) =
      (((run acts).1.take act).1, (run acts).2 ++ ((run acts).1.take act).2.toList) := by
  simp [run, List.foldl_append]

/-! ## Keys that were given out -/

/-- How an overlay stands to the keys that were given out: they are numbered from nothing, and of
those under way none stands out of their order. -/
structure Numbered (o : Overlay) (given : List WriteKey) : Prop where
  next : o.nextPending = UInt64.ofNat given.length
  below : ∀ key ∈ given, ∃ i < given.length, key = .pending (UInt64.ofNat i)
  inOrder : o.pendingPart.keys.Sublist given

namespace Numbered

variable {o} {given : List WriteKey}

/-- As long as the numbers last, the next key comes behind all that were given out. -/
theorem lt_next (h : o.Numbered given) (hfew : given.length < 2 ^ 64) {key : WriteKey}
    (hkey : key ∈ given) : compare key (.pending o.nextPending) = .lt := by
  obtain ⟨i, hi, rfl⟩ := h.below key hkey
  rw [WriteKey.compare_pending_eq_lt, h.next, UInt64.lt_iff_toNat_lt,
    UInt64.toNat_ofNat_of_lt' (Nat.lt_trans hi hfew), UInt64.toNat_ofNat_of_lt' hfew]
  exact hi

theorem lt_next_of_mem_toList (h : o.Numbered given) (hfew : given.length < 2 ^ 64)
    {x : WriteKey × Edit} (hx : x ∈ o.toList) : compare x.1 (.pending o.nextPending) = .lt := by
  rw [toList_eq_halves, List.mem_append] at hx
  rcases hx with hx | hx
  · obtain ⟨k, e⟩ := x
    have hk := (List.mem_filter.1 hx).2
    cases k with
    | confirmed c => rfl
    | pending n => simp [WriteKey.isPending] at hk
  · exact h.lt_next hfew (h.inOrder.subset (List.mem_map_of_mem hx))

theorem addPending (h : o.Numbered given) (hfew : given.length < 2 ^ 64) (e : Edit) :
    (o.addPending e).1.Numbered (given ++ [(o.addPending e).2]) where
  next := by
    change o.nextPending + 1 = _
    rw [h.next, List.length_append, List.length_singleton, UInt64.ofNat_add]
    rfl
  below := by
    intro key hkey
    rw [List.length_append, List.length_singleton]
    rcases List.mem_append.1 hkey with hkey | hkey
    · obtain ⟨i, hi, rfl⟩ := h.below key hkey
      exact ⟨i, by omega, rfl⟩
    · obtain rfl := List.mem_singleton.1 hkey
      exact ⟨given.length, by omega, congrArg WriteKey.pending h.next⟩
  inOrder := by
    have hlast : ∀ x ∈ o.pendingPart.toList, compare x.1 (.pending o.nextPending) = .lt :=
      fun x hx => h.lt_next hfew (h.inOrder.subset (List.mem_map_of_mem hx))
    rw [addPending_pendingPart, KeyedMap.keys, KeyedMap.toList_insert_last e hlast, List.map_append]
    exact h.inOrder.append_right _

theorem of_pendingPart (h : o.Numbered given) {o' : Overlay} (hnext : o'.nextPending = o.nextPending)
    (hkeys : o'.pendingPart.keys.Sublist o.pendingPart.keys) : o'.Numbered given where
  next := hnext.trans h.next
  below := h.below
  inOrder := hkeys.trans h.inOrder

theorem take (h : o.Numbered given) (act : Act)
    (hfew : given.length + (if act.adds then 1 else 0) ≤ 2 ^ 64) :
    (o.take act).1.Numbered (given ++ (o.take act).2.toList) := by
  cases act with
  | addPending e => exact h.addPending hfew e
  | confirm c e w =>
    rw [Overlay.take, Option.toList_none, List.append_nil]
    apply h.of_pendingPart (o.confirm_nextPending c w e)
    simpa only [confirm_pendingPart] using List.Sublist.refl _
  | erase key =>
    rw [Overlay.take, Option.toList_none, List.append_nil]
    apply h.of_pendingPart (o.erase_nextPending key)
    rw [erase_pendingPart]
    exact List.Sublist.map _ List.filter_sublist
  | prune w =>
    rw [Overlay.take, Option.toList_none, List.append_nil]
    apply h.of_pendingPart (o.pruneThrough_nextPending w)
    simpa only [pruneThrough_pendingPart] using List.Sublist.refl _

end Numbered

theorem length_given (acts : List Act) : (run acts).2.length = acts.countP Act.adds := by
  induction acts using List.reverseRecOn with
  | nil => rfl
  | append_singleton acts act ih =>
    rw [run_concat, List.length_append, ih, List.countP_append]
    cases act <;> rfl

theorem numbered_run {acts : List Act} (hfew : acts.countP Act.adds ≤ 2 ^ 64) :
    (run acts).1.Numbered (run acts).2 := by
  induction acts using List.reverseRecOn with
  | nil => exact ⟨rfl, by simp [run], List.Sublist.refl _⟩
  | append_singleton acts act ih =>
    rw [List.countP_append, List.countP_singleton] at hfew
    rw [run_concat]
    apply (ih (by omega)).take
    rw [length_given]
    exact hfew

/-! ## The law -/

/-- Whatever was done to an overlay, as long as there are numbers for the writes that it was given:
its writes stand in the strict order of their keys, which is that of the changes for those that the
server accepted, and then for those under way that in which their keys were given out. The next
write under way gets a key that was not given out before and that stands behind all others. Each
half is counted, and the latter is also what stands from the least key of its kind on. A watermark
prunes the accepted writes that it has come up to, with their number, and of two watermarks it is
the higher that counts. -/
theorem accepted_writes_stand_before_those_under_way (acts : List Act)
    (hfew : acts.countP Act.adds < 2 ^ 64) :
    let o := (run acts).1
    let given := (run acts).2
    o.toList.Pairwise (fun x y => compare x.1 y.1 = .lt) ∧
    o.toList = o.toList.filter (!·.1.isPending) ++ o.toList.filter (·.1.isPending) ∧
    (o.toList.filterMap (·.1.changeId?)).Pairwise (· < ·) ∧
    ((o.toList.filter (·.1.isPending)).map (·.1)).Sublist given ∧
    (∀ e, (o.addPending e).2.isPending ∧ (o.addPending e).2 ∉ given ∧
      ∀ x ∈ o.toList, compare x.1 (o.addPending e).2 = .lt) ∧
    o.pendingCount = o.toList.countP (·.1.isPending) ∧
    o.pendingCount = o.toList.countP (fun x => (compare x.1 (.pending 0)).isGE) ∧
    o.confirmedCount = o.toList.countP (!·.1.isPending) ∧
    o.pendingCount + o.confirmedCount = o.size ∧ o.size = o.toList.length ∧
    (∀ w, (o.pruneThrough w).1.toList = o.toList.filter (fun x => !x.1.changeId?.any (· ≤ w)) ∧
      (o.pruneThrough w).2 = o.toList.countP fun x => x.1.changeId?.any (· ≤ w)) ∧
    ∀ a b, ((o.pruneThrough a).1.pruneThrough b).1 = (o.pruneThrough ⟨max a.val b.val⟩).1 ∧
      (o.pruneThrough a).2 + ((o.pruneThrough a).1.pruneThrough b).2 =
        (o.pruneThrough ⟨max a.val b.val⟩).2 := by
  intro o given
  have h : o.Numbered given := numbered_run (Nat.le_of_lt hfew)
  have hroom : given.length < 2 ^ 64 := by rwa [length_given]
  refine ⟨o.edits.ascending, o.toList_eq_halves, o.changeIds_ascend, h.inOrder, ?_,
    o.pendingCount_eq, ?_, o.confirmedCount_eq, ?_, rfl, ?_, ?_⟩
  · intro e
    refine ⟨rfl, fun hold => ?_, fun x hx => h.lt_next_of_mem_toList hroom hx⟩
    have hself := h.lt_next hroom hold
    simp [Overlay.addPending] at hself
  · simp only [WriteKey.isGE_compare_pending_zero]
    exact o.pendingCount_eq
  · rw [o.size_eq, o.pendingCount_eq, o.confirmedCount_eq]
  · exact fun w => ⟨o.pruneThrough_toList w, o.pruneThrough_count w⟩
  · exact fun a b => ⟨o.pruneThrough_pruneThrough a b, o.pruneThrough_pruneThrough_count a b⟩

/-- Of two writes under way the first is given up, and of two changes that were accepted the stream
brings the earlier. -/
def halfDone : List Act :=
  [.addPending (.deletePuzzle ⟨1⟩), .confirm ⟨20⟩ (.deletePuzzle ⟨2⟩) ⟨10⟩,
    .confirm ⟨15⟩ (.deleteRound ⟨3⟩) ⟨10⟩, .addPending (.deletePuzzle ⟨4⟩), .erase (.pending 0),
    .prune ⟨15⟩]

theorem the_second_write_stands_behind_the_twentieth_change :
    let o := (run halfDone).1
    halfDone.countP Act.adds < 2 ^ 64 ∧ o.toList.map (·.1) = [.confirmed ⟨20⟩, .pending 1] ∧
    ((o.toList.filter (·.1.isPending)).map (·.1)).Sublist [.pending 0, .pending 1] ∧
    (∀ e, (o.addPending e).2 ∉ [WriteKey.pending 0, .pending 1]) ∧
    o.pendingCount + o.confirmedCount = 2 ∧ (o.pruneThrough ⟨20⟩).2 = 1 := by
  have hfew : halfDone.countP Act.adds < 2 ^ 64 := by decide
  obtain ⟨-, -, -, hissued, hnew, -, -, -, hsum, -, hprune, -⟩ :=
    accepted_writes_stand_before_those_under_way halfDone hfew
  exact ⟨hfew, by decide, hissued, fun e => (hnew e).2.1, hsum.trans (by decide),
    (hprune ⟨20⟩).2.trans (by decide)⟩

end Overlay

end HuntBoard
