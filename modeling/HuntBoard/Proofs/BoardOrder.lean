-- The order on a board. The rounds and the puzzles stand as the rules say: ids decide in the end,
-- so there is one such order, however the board came by its rounds and puzzles.
import HuntBoard.Proofs.BoardContents

namespace HuntBoard

/-! ## Comparisons -/

section

variable {α β : Type} {cmp : α → α → Ordering}

/-- A comparison is lawful when it can be turned around, what comes before goes on to what comes
behind, and only equals are alike. -/
theorem transCmp_of_lt (swap : ∀ a b, cmp a b = (cmp b a).swap)
    (trans : ∀ a b c, cmp a b = .lt → cmp b c = .lt → cmp a c = .lt)
    (eq : ∀ a b, cmp a b = .eq → a = b) : Std.TransCmp cmp where
  eq_swap := swap _ _
  isLE_trans {a b c} hab hbc := by
    cases h : cmp a b with
    | gt => simp [h] at hab
    | eq => exact eq a b h ▸ hbc
    | lt =>
      cases h' : cmp b c with
      | gt => simp [h'] at hbc
      | eq => exact eq b c h' ▸ hab
      | lt => rw [trans a b c h h']; rfl

theorem transCmp_on [Std.TransCmp cmp] (f : β → α) :
    Std.TransCmp fun a b => cmp (f a) (f b) where
  eq_swap := Std.OrientedCmp.eq_swap
  isLE_trans hab hbc := Std.TransCmp.isLE_trans hab hbc

/-- A comparison is a strict order of things, and decides between any two with different ids. -/
structure DecidesById {ι : Type} (cmp : α → α → Ordering) (id : α → ι) : Prop where
  irrefl (a : α) : cmp a a ≠ .lt
  swap (a b : α) : cmp b a = (cmp a b).swap
  antisymm {a b : α} (h : cmp a b = .lt) : cmp b a ≠ .lt
  trans {a b c : α} (hab : cmp a b = .lt) (hbc : cmp b c = .lt) : cmp a c = .lt
  total {a b : α} (h : id a ≠ id b) : cmp a b = .lt ∨ cmp b a = .lt

theorem decidesById_of_eq {ι : Type} {id : α → ι} [Std.TransCmp cmp]
    (h : ∀ a b, cmp a b = .eq → id a = id b) : DecidesById cmp id where
  irrefl a := by
    have haa : cmp a a = .eq := Std.ReflCmp.compare_self
    simp [haa]
  swap a b := Std.OrientedCmp.eq_swap
  antisymm {a b} hab := by
    have hba : cmp b a = .gt := Std.OrientedCmp.gt_iff_lt.2 hab
    simp [hba]
  trans hab hbc := Std.TransCmp.lt_trans hab hbc
  total {a b} hne := by
    cases hab : cmp a b with
    | lt => exact .inl rfl
    | eq => exact absurd (h a b hab) hne
    | gt => exact .inr (Std.OrientedCmp.gt_iff_lt.1 hab)

end

theorem orderBool_eq_lt {a b : Bool} : orderBool a b = .lt ↔ a = false ∧ b = true := by
  cases a <;> cases b <;> decide

theorem orderBool_eq_eq {a b : Bool} : orderBool a b = .eq ↔ a = b := by
  cases a <;> cases b <;> decide

instance : Std.TransCmp orderBool := by
  apply transCmp_of_lt
  · decide
  · decide
  · decide

/-! ## Instants -/

namespace Instant

variable {a b c : Instant}

theorem before_iff : a.before b ↔ a.rank < b.rank := decide_eq_true_iff

theorem notAfter_iff : a.notAfter b ↔ ¬ b.before a := by
  unfold notAfter
  rw [Bool.not_eq_true']
  exact Bool.eq_false_iff

/-- The numbers that place an instant tell it. -/
theorem eq_of_rank (h : a.rank = b.rank) : a = b := by
  obtain ⟨⟨year, month, day, _, _, _, _⟩, second, nanos, _, _, _⟩ := a
  obtain ⟨⟨year', month', day', _, _, _, _⟩, second', nanos', _, _, _⟩ := b
  simp only [rank, List.cons.injEq, and_true, Int.natCast_inj] at h
  obtain ⟨rfl, rfl, rfl, rfl, rfl⟩ := h
  rfl

theorem not_before_self : ¬ a.before a := by
  rw [before_iff]
  exact List.lt_irrefl _

theorem before_trans (hab : a.before b) (hbc : b.before c) : a.before c := by
  rw [before_iff] at *
  exact List.lt_trans hab hbc

theorem eq_of_not_before (hab : ¬ a.before b) (hba : ¬ b.before a) : a = b := by
  rw [before_iff] at hab hba
  exact eq_of_rank (List.le_antisymm hba hab)

end Instant

theorem orderInstant_eq_lt {a b : Instant} : orderInstant a b = .lt ↔ a.before b := by
  unfold orderInstant
  split
  · simp [*]
  · split <;> simp [*]

theorem orderInstant_eq_eq {a b : Instant} : orderInstant a b = .eq ↔ a = b := by
  constructor
  · intro h
    unfold orderInstant at h
    split at h
    · simp at h
    · split at h
      · simp at h
      · exact Instant.eq_of_not_before ‹_› ‹_›
  · rintro rfl
    unfold orderInstant
    rw [if_neg Instant.not_before_self, if_neg Instant.not_before_self]

instance : Std.TransCmp orderInstant := by
  apply transCmp_of_lt
  · intro a b
    unfold orderInstant
    by_cases hab : a.before b
    · have hba : ¬ b.before a := fun hba => Instant.not_before_self (Instant.before_trans hab hba)
      simp [hab, hba]
    · by_cases hba : b.before a <;> simp [hab, hba]
  · intro a b c
    simp only [orderInstant_eq_lt]
    exact Instant.before_trans
  · intro a b
    exact orderInstant_eq_eq.1

/-! ## Rounds -/

namespace Round

variable {a b : Round}

/-- A round stands before another: special rounds before the others, then the one with the lesser
sort number, then the one with the lesser id. -/
inductive Precedes (a b : Round) : Prop
  | special (ha : a.special = true) (hb : b.special = false)
  | sort (hspecial : a.special = b.special) (h : a.sort < b.sort)
  | id (hspecial : a.special = b.special) (hsort : a.sort = b.sort) (h : a.id.val < b.id.val)

theorem order_eq_lt : a.order b = .lt ↔ a.Precedes b := by
  have hsort : compare a.sort b.sort = .lt ↔ a.sort < b.sort := Std.compare_eq_lt
  have hid : compare a.id b.id = .lt ↔ a.id.val < b.id.val :=
    Std.compare_eq_lt (a := a.id.val) (b := b.id.val)
  unfold order
  simp only [Ordering.then_eq_lt, orderBool_eq_lt, orderBool_eq_eq, hsort, hid,
    Std.LawfulEqOrd.compare_eq_iff_eq]
  constructor
  · rintro (⟨hb, ha⟩ | ⟨hspecial, h | ⟨hsort, h⟩⟩)
    · exact .special ha hb
    · exact .sort hspecial.symm h
    · exact .id hspecial.symm hsort h
  · intro h
    cases h with
    | special ha hb => exact .inl ⟨hb, ha⟩
    | sort hspecial h => exact .inr ⟨hspecial.symm, .inl h⟩
    | id hspecial hsort h => exact .inr ⟨hspecial.symm, .inr ⟨hsort, h⟩⟩

instance (a b : Round) : Decidable (a.Precedes b) := decidable_of_iff _ order_eq_lt

theorem id_of_order_eq (h : a.order b = .eq) : a.id = b.id := by
  unfold order at h
  simp only [Ordering.then_eq_eq, Std.LawfulEqOrd.compare_eq_iff_eq] at h
  exact h.2.2

instance : Std.TransCmp order := by
  have hspecial : Std.TransCmp fun a b : Round => orderBool a.special b.special :=
    transCmp_on special
  have hturned : Std.TransCmp fun a b : Round => orderBool b.special a.special :=
    Std.TransCmp.opposite
  exact inferInstanceAs (Std.TransCmp (compareLex (fun a b : Round => orderBool b.special a.special)
    (compareLex (compareOn sort) (compareOn Round.id))))

end Round

/-! ## Puzzles -/

/-- What puts a puzzle before or behind others that are metas as it is, or not. -/
inductive Place where
  /-- The time to be reminded of it has come. -/
  | due (t : Instant)
  /-- Nobody is to be reminded of it. Its name is in lower case. -/
  | undated (name : String)
  /-- The time to be reminded of it has not come. -/
  | later (t : Instant)
  deriving DecidableEq

namespace Place

variable {p q r : Place}

/-- What is due stands first, by time, then by name what is not dated, and last by time what is
for later. -/
def Before : Place → Place → Prop
  | .due s, .due t => s.before t
  | .due _, _ => True
  | .undated _, .due _ => False
  | .undated m, .undated n => m < n
  | .undated _, .later _ => True
  | .later s, .later t => s.before t
  | .later _, _ => False

/-- The comparison of places. -/
def order : Place → Place → Ordering
  | .due s, .due t => orderInstant s t
  | .due _, _ => .lt
  | .undated _, .due _ => .gt
  | .undated m, .undated n => compare m n
  | .undated _, .later _ => .lt
  | .later s, .later t => orderInstant s t
  | .later _, _ => .gt

theorem order_eq_lt : p.order q = .lt ↔ p.Before q := by
  have hname : ∀ m n : String, compare m n = .lt ↔ m < n := fun _ _ => compareOfLessAndEq_eq_lt
  cases p <;> cases q <;> simp only [order, Before, orderInstant_eq_lt, hname, reduceCtorEq]

theorem order_eq_eq : p.order q = .eq ↔ p = q := by
  cases p <;> cases q <;> simp [order, orderInstant_eq_eq]

theorem Before.trans (hpq : p.Before q) (hqr : q.Before r) : p.Before r := by
  cases p <;> cases q <;> cases r <;> simp only [Before] at hpq hqr ⊢
  · exact Instant.before_trans hpq hqr
  · exact String.lt_trans hpq hqr
  · exact Instant.before_trans hpq hqr

instance : Std.TransCmp order := by
  apply transCmp_of_lt
  · intro p q
    cases p <;> cases q <;> simp only [order, Ordering.swap_lt, Ordering.swap_gt]
    all_goals exact Std.OrientedCmp.eq_swap
  · intro p q r
    simp only [order_eq_lt]
    exact Before.trans
  · intro p q
    exact order_eq_eq.1

end Place

namespace Puzzle

variable {now : Instant} {a b : Puzzle}

def place (now : Instant) (p : Puzzle) : Place :=
  match p.reminder with
  | some t => if t.notAfter now then .due t else .later t
  | none => .undated (Text.lower p.name)

/-- A puzzle stands before another: metas behind the others, then the one with the place before,
then the one with the lesser id. -/
inductive Precedes (now : Instant) (a b : Puzzle) : Prop
  | isMeta (ha : a.isMeta = false) (hb : b.isMeta = true)
  | place (hmeta : a.isMeta = b.isMeta) (h : (a.place now).Before (b.place now))
  | id (hmeta : a.isMeta = b.isMeta) (hplace : a.place now = b.place now) (h : a.id.val < b.id.val)

/-- The groups, and the order in a group, come to the order of places. -/
theorem group_then (now : Instant) (a b : Puzzle) :
    (compare (a.group now) (b.group now)).then (a.orderInGroup b) =
      (a.place now).order (b.place now) := by
  unfold group orderInGroup place
  cases a.reminder with
  | none =>
    cases b.reminder with
    | none => rfl
    | some t => dsimp only; split <;> rfl
  | some s =>
    cases b.reminder with
    | none => dsimp only; split <;> rfl
    | some t => dsimp only; split <;> split <;> rfl

theorem order_eq (now : Instant) (a b : Puzzle) :
    a.order now b = (orderBool a.isMeta b.isMeta).then
      (((a.place now).order (b.place now)).then (compare a.id b.id)) := by
  rw [← group_then, Ordering.then_assoc]
  rfl

theorem order_eq_lt : a.order now b = .lt ↔ a.Precedes now b := by
  have hid : compare a.id b.id = .lt ↔ a.id.val < b.id.val :=
    Std.compare_eq_lt (a := a.id.val) (b := b.id.val)
  rw [order_eq]
  simp only [Ordering.then_eq_lt, orderBool_eq_lt, orderBool_eq_eq, Place.order_eq_lt,
    Place.order_eq_eq, hid]
  constructor
  · rintro (⟨ha, hb⟩ | ⟨hmeta, h | ⟨hplace, h⟩⟩)
    · exact .isMeta ha hb
    · exact .place hmeta h
    · exact .id hmeta hplace h
  · intro h
    cases h with
    | isMeta ha hb => exact .inl ⟨ha, hb⟩
    | place hmeta h => exact .inr ⟨hmeta, .inl h⟩
    | id hmeta hplace h => exact .inr ⟨hmeta, .inr ⟨hplace, h⟩⟩

instance (now : Instant) (a b : Puzzle) : Decidable (a.Precedes now b) :=
  decidable_of_iff _ order_eq_lt

theorem id_of_order_eq (h : a.order now b = .eq) : a.id = b.id := by
  rw [order_eq] at h
  simp only [Ordering.then_eq_eq, Std.LawfulEqOrd.compare_eq_iff_eq] at h
  exact h.2.2

instance (now : Instant) : Std.TransCmp (order now) := by
  have hmeta : Std.TransCmp fun a b : Puzzle => orderBool a.isMeta b.isMeta :=
    transCmp_on isMeta
  have hplace : Std.TransCmp fun a b : Puzzle => (a.place now).order (b.place now) :=
    transCmp_on (place now)
  have horder : order now = compareLex (fun a b => orderBool a.isMeta b.isMeta)
      (compareLex (fun a b => (a.place now).order (b.place now)) (compareOn Puzzle.id)) := by
    funext a b
    exact order_eq now a b
  rw [horder]
  infer_instance

end Puzzle

/-! ## Sorted lists -/

/-- A list stands in an order, and no other arrangement of it does. -/
structure OnlyArrangement {α : Type} (before : α → α → Prop) (l : List α) : Prop where
  inOrder : l.Pairwise before
  only {l' : List α} (h : l'.Perm l) (h' : l'.Pairwise before) : l' = l

/-! ## Maps of what was collected -/

/-- A map is made of its values in whatever order, when they tell their own keys. -/
theorem KeyedMap.ofList_of_perm {κ α : Type} [Ord κ] [Std.LawfulEqOrd κ] [Std.TransOrd κ]
    {m : KeyedMap κ α} {key : α → κ} (h : m.All fun k v => key v = k) {l : List α}
    (hl : l.Perm m.values) : ofList (l.map fun v => (key v, v)) = m := by
  have hmem : ∀ v, v ∈ l ↔ (key v, v) ∈ m.toList := by
    intro v
    rw [hl.mem_iff, values, List.mem_map]
    constructor
    · rintro ⟨⟨k, v⟩, hkv, rfl⟩
      rwa [h k v ((m.get?_eq_some_iff k v).2 hkv)]
    · intro hkv
      exact ⟨_, hkv, rfl⟩
  apply ofList_eq
  · have hkeys := hl.map key
    rw [map_values h] at hkeys
    rw [List.map_map]
    exact hkeys.nodup_iff.2 m.keys_nodup
  · intro k v
    rw [List.mem_map]
    constructor
    · rintro ⟨v, hv, hkv⟩
      rw [← hkv]
      exact (hmem v).1 hv
    · intro hkv
      obtain rfl : key v = k := h k v ((m.get?_eq_some_iff k v).2 hkv)
      exact ⟨v, (hmem v).2 hkv, rfl⟩

theorem Entities.Keyed.ofLists_of_perm {s : Entities} (hs : s.Keyed) {puzzles : List Puzzle}
    {rounds : List Round} (hpuzzles : puzzles.Perm s.puzzles.values)
    (hrounds : rounds.Perm s.rounds.values) : Entities.ofLists puzzles rounds = s := by
  unfold Entities.ofLists
  rw [KeyedMap.ofList_of_perm hs.puzzles hpuzzles, KeyedMap.ofList_of_perm hs.rounds hrounds]

namespace Board

section

variable {α ι : Type} {cmp : α → α → Ordering} {a b c : α}

theorem inOrder_iff : inOrder cmp a b ↔ (cmp a b).isLE := by
  unfold inOrder
  cases cmp a b <;> decide

theorem lt_of_isLE {id : α → ι} (hid : ∀ a b, cmp a b = .eq → id a = id b)
    (h : (cmp a b).isLE) (hne : id a ≠ id b) : cmp a b = .lt := by
  cases hab : cmp a b with
  | lt => rfl
  | eq => exact absurd (hid a b hab) hne
  | gt => simp [hab] at h

/-- Among things with different ids, the order is strict. -/
theorem pairwise_lt {id : α → ι} {l : List α} (hid : ∀ a b, cmp a b = .eq → id a = id b)
    (h : l.Pairwise fun a b => (cmp a b).isLE) (hids : (l.map id).Nodup) :
    l.Pairwise fun a b => cmp a b = .lt := by
  rw [List.Nodup, List.pairwise_map] at hids
  exact (h.and hids).imp fun hab => lt_of_isLE hid hab.1 hab.2

variable [Std.TransCmp cmp]

theorem inOrder_trans (a b c : α) (hab : inOrder cmp a b) (hbc : inOrder cmp b c) :
    inOrder cmp a c := by
  rw [inOrder_iff] at *
  exact Std.TransCmp.isLE_trans hab hbc

theorem inOrder_total (a b : α) : inOrder cmp a b || inOrder cmp b a := by
  have hswap : cmp b a = (cmp a b).swap := Std.OrientedCmp.eq_swap
  unfold inOrder
  rw [hswap]
  cases cmp a b <;> decide

/-- Sorting puts things in order. -/
theorem pairwise_sorted (l : List α) :
    (l.mergeSort (inOrder cmp)).Pairwise fun a b => (cmp a b).isLE :=
  (List.pairwise_mergeSort inOrder_trans inOrder_total l).imp inOrder_iff.1

/-- There is no other arrangement that is strictly in order. -/
theorem onlyArrangement_of_lt {l : List α} (h : l.Pairwise fun a b => cmp a b = .lt) :
    OnlyArrangement (fun a b => cmp a b = .lt) l where
  inOrder := h
  only hp hl' := by
    refine hp.eq_of_pairwise ?_ hl' h
    intro a b _ _ hab hba
    simp [Std.OrientedCmp.gt_iff_lt.2 hab] at hba

end

/-! ## Shares -/

/-- The rounds with their puzzles: each round takes its own out of those that are left. -/
def shares : List Puzzle → List Round → List (Round × List Puzzle)
  | _, [] => []
  | puzzles, r :: rest =>
    (r, puzzles.filter (·.round = r.id)) :: shares (puzzles.filter (·.round ≠ r.id)) rest

theorem mem_shares {puzzles : List Puzzle} {rounds : List Round} {x : Round × List Puzzle}
    (h : x ∈ shares puzzles rounds) :
    x.1 ∈ rounds ∧ ∀ p ∈ x.2, p ∈ puzzles ∧ p.round = x.1.id := by
  induction rounds generalizing puzzles with
  | nil => simp [shares] at h
  | cons r rounds ih =>
    rw [shares, List.mem_cons] at h
    rcases h with rfl | h
    · refine ⟨List.mem_cons_self .., ?_⟩
      intro p hp
      simpa using List.mem_filter.1 hp
    · obtain ⟨hround, hown⟩ := ih h
      refine ⟨List.mem_cons_of_mem _ hround, ?_⟩
      intro p hp
      exact ⟨(List.mem_filter.1 (hown p hp).1).1, (hown p hp).2⟩

/-- The known rounds in the order of the board, with their puzzles in the order of their ids. -/
def shared (s : Entities) : List (Round × List Puzzle) :=
  (shares s.puzzles.values s.rounds.values).mergeSort (inOrder fun a b => a.1.order b.1)

theorem deal_eq_shares (now : Instant) {groups : KeyedMap RoundId (List Puzzle)}
    {puzzles : List Puzzle} (rounds : List Round)
    (h : ∀ id, (groups.get? id).getD [] = puzzles.filter (·.round = id)) :
    deal now groups rounds = (shares puzzles rounds).map fun x => roundBoard now x.1 x.2 := by
  induction rounds generalizing groups puzzles with
  | nil => rfl
  | cons r rounds ih =>
    rw [deal, shares, List.map_cons, h, ih]
    intro id
    rw [KeyedMap.get?_erase, List.filter_filter]
    by_cases hid : id = r.id
    · subst hid
      simp
    · simp only [Std.LawfulEqOrd.compare_eq_iff_eq, hid, if_false, h]
      apply List.filter_congr
      intro p _
      by_cases hp : p.round = id <;> simp [hp, hid]

/-- The rounds of a board are the shares, each with its puzzles in order. -/
theorem rounds_eq (s : Entities) (now : Instant) :
    (ofEntities s now).rounds = (shared s).map fun x => roundBoard now x.1 x.2 := by
  unfold ofEntities shared
  rw [deal_eq_shares now]
  · symm
    apply List.map_mergeSort
    intro a _ b _
    rfl
  · intro id
    rw [getD_foldl_join, KeyedMap.get?_empty, Option.getD_none, List.nil_append]

theorem puzzleCount_ofEntities (s : Entities) (now : Instant) :
    (ofEntities s now).puzzleCount = s.puzzles.size := rfl

theorem solvedCount_ofEntities (s : Entities) (now : Instant) :
    (ofEntities s now).solvedCount = s.puzzles.values.countP Puzzle.isSolved := rfl

/-- Puzzles that are changed, but not in their order, stand where they stood. -/
theorem roundBoard_map {t₁ t₂ : Instant} (r : Round) {own : List Puzzle} {f : Puzzle → Puzzle}
    (h : ∀ p ∈ own, ∀ q ∈ own, (f p).order t₂ (f q) = p.order t₁ q) :
    roundBoard t₂ r (own.map f) = ⟨r, (roundBoard t₁ r own).puzzles.map f⟩ := by
  unfold roundBoard
  congr 1
  symm
  apply List.map_mergeSort
  intro p hp q hq
  unfold inOrder
  rw [h p hp q hq]

/-! ## The law -/

theorem rounds_isLE (s : Entities) (now : Instant) :
    (ofEntities s now).rounds.Pairwise fun x y => (x.round.order y.round).isLE := by
  have horder : Std.TransCmp fun x y : RoundBoard => x.round.order y.round :=
    transCmp_on RoundBoard.round
  exact pairwise_sorted _

theorem puzzles_isLE {s : Entities} {now : Instant} {r : RoundBoard}
    (hr : r ∈ (ofEntities s now).rounds) : r.puzzles.Pairwise fun p q => (p.order now q).isLE := by
  rw [rounds_eq] at hr
  obtain ⟨x, -, rfl⟩ := List.mem_map.1 hr
  exact pairwise_sorted _

variable {s : Entities}

theorem round_ids_nodup (now : Instant) (hs : s.Keyed) :
    ((ofEntities s now).rounds.map (·.round.id)).Nodup := by
  have hperm := (rounds_perm now hs).map (·.round.id)
  have hids : (s.rounds.values.map fun r =>
      roundBoard now r (s.puzzles.values.filter (·.round = r.id))).map (·.round.id) =
      s.rounds.keys := by
    rw [List.map_map, ← KeyedMap.map_values hs.rounds]
    rfl
  rw [hids] at hperm
  exact hperm.nodup_iff.2 s.rounds.keys_nodup

theorem puzzle_ids_nodup {now : Instant} (hs : s.Keyed) {r : RoundBoard}
    (hr : r ∈ (ofEntities s now).rounds) : (r.puzzles.map (·.id)).Nodup := by
  have hperm := (puzzles_perm_of_mem now hs hr).map (·.id)
  have hsub := (List.filter_sublist (l := s.puzzles.values) (p := (·.round = r.round.id))).map
    (·.id)
  rw [KeyedMap.map_values hs.puzzles] at hsub
  exact hperm.nodup_iff.2 (hsub.nodup s.puzzles.keys_nodup)

theorem puzzles_lt {now : Instant} (hs : s.Keyed) {r : RoundBoard}
    (hr : r ∈ (ofEntities s now).rounds) : r.puzzles.Pairwise fun p q => p.order now q = .lt :=
  pairwise_lt (fun _ _ => Puzzle.id_of_order_eq) (puzzles_isLE hr) (puzzle_ids_nodup hs hr)

theorem rounds_lt (now : Instant) (hs : s.Keyed) :
    (ofEntities s now).rounds.Pairwise fun x y => x.round.order y.round = .lt :=
  pairwise_lt (fun _ _ => Round.id_of_order_eq) (rounds_isLE s now) (round_ids_nodup now hs)

/-- However the puzzles of a round were collected, it has the same board. -/
theorem roundBoard_of_perm {now : Instant} (hs : s.Keyed) {r : RoundBoard}
    (hr : r ∈ (ofEntities s now).rounds) {own : List Puzzle} (hp : own.Perm r.puzzles) :
    roundBoard now r.round own = r := by
  have hperm : (roundBoard now r.round own).puzzles.Perm r.puzzles :=
    (roundBoard_perm now _ own).trans hp
  have hids := (hperm.map (·.id)).nodup_iff.2 (puzzle_ids_nodup hs hr)
  have hsorted : (roundBoard now r.round own).puzzles.Pairwise fun p q => p.order now q = .lt :=
    pairwise_lt (fun _ _ => Puzzle.id_of_order_eq) (pairwise_sorted own) hids
  have hsame := (onlyArrangement_of_lt (puzzles_lt hs hr)).only hperm hsorted
  exact congrArg (RoundBoard.mk r.round) hsame

/-- Ten minutes past noon. -/
def soon : Instant :=
  { Waiting.noon with second := 43800, second_lt := by decide, leap_at_end := by decide }

/-- Three rounds, two of them without puzzles. Of the puzzles one has its reminder at noon, one
soon after and one in the evening, two have none, and one is a meta. -/
def harbour : Entities :=
  .ofLists
    [{ id := ⟨1⟩, name := "zeta", round := ⟨1⟩, reminder := some Waiting.noon },
      { id := ⟨2⟩, name := "alpha", round := ⟨1⟩, reminder := some Waiting.evening },
      { id := ⟨3⟩, name := "beta", round := ⟨1⟩, reminder := some soon },
      { id := ⟨4⟩, name := "Bravo", round := ⟨1⟩ },
      { id := ⟨5⟩, name := "bravo", round := ⟨1⟩ },
      { id := ⟨6⟩, name := "Atoll", round := ⟨1⟩, isMeta := true }]
    [{ id := ⟨1⟩, name := "Ocean" }, { id := ⟨5⟩, name := "Events", special := true, sort := 100 },
      { id := ⟨7⟩, name := "Early", sort := -1 }]

end Board

end HuntBoard
