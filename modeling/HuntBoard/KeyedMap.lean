-- A finite map that keeps its entries in the order of their keys, so that
-- two maps with the same lookups are the same value and a walk over a map
-- always meets the keys in ascending order.

namespace HuntBoard

/-! ## Sorted entry lists -/

namespace Entries

variable {κ α : Type} [Ord κ]

/-- The keys of a list of entries strictly ascend. -/
def Ascending (l : List (κ × α)) : Prop :=
  l.Pairwise (fun a b => compare a.1 b.1 = .lt)

/-- Put an entry in its place, over an entry with the same key. -/
def put (k : κ) (v : α) : List (κ × α) → List (κ × α)
  | [] => [(k, v)]
  | (k', v') :: rest =>
    match compare k k' with
    | .lt => (k, v) :: (k', v') :: rest
    | .eq => (k, v) :: rest
    | .gt => (k', v') :: put k v rest

/-- The first value under a key. -/
def find (k : κ) : List (κ × α) → Option α
  | [] => none
  | (k', v) :: rest => if compare k k' = .eq then some v else find k rest

/-- The entries under other keys. -/
def drop (k : κ) (l : List (κ × α)) : List (κ × α) :=
  l.filter (fun e => compare k e.1 != .eq)

theorem mem_put {k : κ} {v : α} {e : κ × α} {l : List (κ × α)} (h : e ∈ put k v l) :
    e = (k, v) ∨ e ∈ l := by
  induction l with
  | nil => simpa [put] using h
  | cons x l ih =>
    obtain ⟨k', v'⟩ := x
    simp only [put] at h
    split at h <;> simp only [List.mem_cons] at h ⊢
    · exact h
    · rcases h with h | h
      · exact Or.inl h
      · exact Or.inr (Or.inr h)
    · rcases h with h | h
      · exact Or.inr (Or.inl h)
      · rcases ih h with h | h
        · exact Or.inl h
        · exact Or.inr (Or.inr h)

theorem drop_ascending (k : κ) {l : List (κ × α)} (h : Ascending l) : Ascending (drop k l) :=
  List.Pairwise.filter _ h

theorem find_eq_none_of_lt {k : κ} {l : List (κ × α)} (h : ∀ e ∈ l, compare k e.1 = .lt) :
    find k l = none := by
  induction l with
  | nil => rfl
  | cons x l ih =>
    obtain ⟨k', v'⟩ := x
    have h1 := h (k', v') (List.mem_cons_self ..)
    simp only [find, h1, reduceCtorEq, ↓reduceIte]
    exact ih (fun e he => h e (List.mem_cons_of_mem _ he))

variable [Std.LawfulEqOrd κ]

theorem compare_eq_iff (a b : κ) : compare a b = .eq ↔ a = b :=
  Std.LawfulEqOrd.compare_eq_iff_eq

theorem find_put (k j : κ) (v : α) (l : List (κ × α)) :
    find j (put k v l) = if compare j k = .eq then some v else find j l := by
  induction l with
  | nil => simp [put, find]
  | cons x l ih =>
    obtain ⟨k', v'⟩ := x
    simp only [put]
    split <;> rename_i hc
    · simp [find]
    · rw [compare_eq_iff] at hc
      subst hc
      simp only [find]
      split <;> simp_all
    · simp only [find, ih]
      by_cases h1 : compare j k' = .eq
      · rw [compare_eq_iff] at h1
        subst h1
        have : compare j k ≠ .eq := by
          intro h
          rw [compare_eq_iff] at h
          subst h
          simp at hc
        simp [this]
      · simp [h1]

theorem find_drop (k j : κ) (l : List (κ × α)) :
    find j (drop k l) = if compare j k = .eq then none else find j l := by
  induction l with
  | nil => simp [drop, find]
  | cons x l ih =>
    obtain ⟨k', v'⟩ := x
    simp only [drop] at ih
    simp only [drop, List.filter_cons]
    by_cases h1 : compare k k' = .eq
    · rw [compare_eq_iff] at h1
      subst h1
      simp only [Std.ReflOrd.compare_self, bne_self_eq_false, Bool.false_eq_true, ↓reduceIte, ih,
        find]
      split <;> simp_all
    · have : (compare k k' != .eq) = true := by simpa using h1
      simp only [this, ↓reduceIte, find, ih]
      by_cases h2 : compare j k' = .eq
      · have h3 : compare j k ≠ .eq := by
          intro h
          rw [compare_eq_iff] at h h2
          subst h
          exact h1 ((compare_eq_iff _ _).2 h2)
        simp [h2, h3]
      · simp [h2]

variable [Std.TransOrd κ]

theorem put_ascending (k : κ) (v : α) {l : List (κ × α)} (h : Ascending l) :
    Ascending (put k v l) := by
  induction l with
  | nil => simp [put, Ascending]
  | cons x l ih =>
    obtain ⟨k', v'⟩ := x
    rw [Ascending, List.pairwise_cons] at h
    obtain ⟨hx, hl⟩ := h
    simp only [put]
    split <;> rename_i hc <;> rw [Ascending, List.pairwise_cons]
    · refine ⟨fun e he => ?_, List.pairwise_cons.2 ⟨hx, hl⟩⟩
      rcases List.mem_cons.1 he with he | he
      · exact he ▸ hc
      · exact Std.TransCmp.lt_trans hc (hx e he)
    · rw [compare_eq_iff] at hc
      exact ⟨fun e he => hc ▸ hx e he, hl⟩
    · refine ⟨fun e he => ?_, ih hl⟩
      rcases mem_put he with he | he
      · rw [he]
        exact Std.OrientedCmp.gt_iff_lt.1 hc
      · exact hx e he

/-- Ascending lists with the same lookups are the same list. -/
theorem eq_of_find_eq {l m : List (κ × α)} (hl : Ascending l) (hm : Ascending m)
    (h : ∀ k, find k l = find k m) : l = m := by
  induction l generalizing m with
  | nil =>
    cases m with
    | nil => rfl
    | cons y m => simpa [find] using h y.1
  | cons x l ih =>
    obtain ⟨k, v⟩ := x
    rw [Ascending, List.pairwise_cons] at hl
    cases m with
    | nil => simpa [find] using h k
    | cons y m =>
      obtain ⟨k', v'⟩ := y
      rw [Ascending, List.pairwise_cons] at hm
      have hkk : compare k k' = .eq := by
        cases hc : compare k k' with
        | eq => rfl
        | lt =>
          have h1 := h k
          rw [find_eq_none_of_lt (l := (k', v') :: m)] at h1
          · simp [find] at h1
          · intro e he
            rcases List.mem_cons.1 he with he | he
            · exact he ▸ hc
            · exact Std.TransCmp.lt_trans hc (hm.1 e he)
        | gt =>
          have hc' : compare k' k = .lt := Std.OrientedCmp.gt_iff_lt.1 hc
          have h1 := h k'
          rw [find_eq_none_of_lt (l := (k, v) :: l)] at h1
          · simp [find] at h1
          · intro e he
            rcases List.mem_cons.1 he with he | he
            · exact he ▸ hc'
            · exact Std.TransCmp.lt_trans hc' (hl.1 e he)
      rw [compare_eq_iff] at hkk
      subst hkk
      have hv := h k
      simp only [find, Std.ReflOrd.compare_self, ↓reduceIte, Option.some.injEq] at hv
      subst hv
      congr 1
      refine ih hl.2 hm.2 (fun j => ?_)
      by_cases hj : compare j k = .eq
      · rw [compare_eq_iff] at hj
        subst hj
        rw [find_eq_none_of_lt hl.1, find_eq_none_of_lt hm.1]
      · simpa [find, hj] using h j

end Entries

/-! ## The map -/

/-- A map from keys to values, held as its entries in key order. -/
structure KeyedMap (κ α : Type) [Ord κ] where
  toList : List (κ × α)
  ascending : Entries.Ascending toList
  deriving DecidableEq

namespace KeyedMap

variable {κ α β : Type} [Ord κ]

def empty : KeyedMap κ α := ⟨[], List.Pairwise.nil⟩

instance : EmptyCollection (KeyedMap κ α) := ⟨empty⟩

instance : Inhabited (KeyedMap κ α) := ⟨empty⟩

/-- The value under a key. -/
def get? (m : KeyedMap κ α) (k : κ) : Option α := Entries.find k m.toList

def contains (m : KeyedMap κ α) (k : κ) : Bool := (m.get? k).isSome

def size (m : KeyedMap κ α) : Nat := m.toList.length

def isEmpty (m : KeyedMap κ α) : Bool := m.toList.isEmpty

/-- The keys, ascending. -/
def keys (m : KeyedMap κ α) : List κ := m.toList.map (·.1)

/-- The values in the order of their keys. -/
def values (m : KeyedMap κ α) : List α := m.toList.map (·.2)

/-- The entries whose keys pass a test. -/
def filterKeys (p : κ → Bool) (m : KeyedMap κ α) : KeyedMap κ α :=
  ⟨m.toList.filter (fun e => p e.1), List.Pairwise.filter _ m.ascending⟩

@[simp] theorem get?_empty (k : κ) : (empty : KeyedMap κ α).get? k = none := rfl

section

variable [Std.LawfulEqOrd κ]

/-- The map without a key. -/
def erase (m : KeyedMap κ α) (k : κ) : KeyedMap κ α :=
  ⟨Entries.drop k m.toList, Entries.drop_ascending k m.ascending⟩

theorem get?_erase (m : KeyedMap κ α) (k j : κ) :
    (m.erase k).get? j = if compare j k = .eq then none else m.get? j :=
  Entries.find_drop k j m.toList

@[simp] theorem get?_erase_self (m : KeyedMap κ α) (k : κ) : (m.erase k).get? k = none := by
  simp [get?_erase]

theorem get?_erase_ne (m : KeyedMap κ α) {k j : κ} (h : j ≠ k) :
    (m.erase k).get? j = m.get? j := by
  simp [get?_erase, h]

variable [Std.TransOrd κ]

/-- Store a value under a key, over what was there. -/
def insert (m : KeyedMap κ α) (k : κ) (v : α) : KeyedMap κ α :=
  ⟨Entries.put k v m.toList, Entries.put_ascending k v m.ascending⟩

/-- A map of the listed entries; of two entries under one key the later stays. -/
def ofList (l : List (κ × α)) : KeyedMap κ α :=
  l.foldl (fun m e => m.insert e.1 e.2) empty

theorem get?_insert (m : KeyedMap κ α) (k j : κ) (v : α) :
    (m.insert k v).get? j = if compare j k = .eq then some v else m.get? j :=
  Entries.find_put k j v m.toList

@[simp] theorem get?_insert_self (m : KeyedMap κ α) (k : κ) (v : α) :
    (m.insert k v).get? k = some v := by
  simp [get?_insert]

theorem get?_insert_ne (m : KeyedMap κ α) {k j : κ} (v : α) (h : j ≠ k) :
    (m.insert k v).get? j = m.get? j := by
  simp [get?_insert, h]

/-- Two maps with the same lookups are equal. -/
theorem ext_get? {m n : KeyedMap κ α} (h : ∀ k, m.get? k = n.get? k) : m = n := by
  obtain ⟨l, hl⟩ := m
  obtain ⟨r, hr⟩ := n
  have : l = r := Entries.eq_of_find_eq hl hr h
  subst this
  rfl

end

end KeyedMap

end HuntBoard
