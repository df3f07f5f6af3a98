-- Keeping some entries of a map, and what stays of them when the map changes.
import HuntBoard.KeyedMap

namespace HuntBoard

/-! ## Entries -/

namespace Entries

variable {κ α : Type} [Ord κ]

/-- An entry behind all others is put at the end. -/
theorem put_of_lt [Std.TransOrd κ] {k : κ} {l : List (κ × α)} (v : α)
    (h : ∀ x ∈ l, compare x.1 k = .lt) : put k v l = l ++ [(k, v)] := by
  induction l with
  | nil => rfl
  | cons x l ih =>
    rw [List.forall_mem_cons] at h
    have hgt : compare k x.1 = .gt := Std.OrientedCmp.gt_iff_lt.2 h.1
    simp only [put, hgt, ih h.2, List.cons_append]

variable [Std.LawfulEqOrd κ]

/-- In a list of ascending keys, a filter keeps the value under a key or drops it. -/
theorem find_filter {l : List (κ × α)} (h : Ascending l) (p : κ → α → Bool) (k : κ) :
    find k (l.filter fun e => p e.1 e.2) = (find k l).filter (p k) := by
  induction l with
  | nil => rfl
  | cons x l ih =>
    obtain ⟨k', v⟩ := x
    rw [Ascending, List.pairwise_cons] at h
    obtain ⟨hx, hl⟩ := h
    by_cases hk : compare k k' = .eq
    · rw [compare_eq_iff] at hk
      subst hk
      have hrest : find k (l.filter fun e => p e.1 e.2) = none :=
        find_eq_none_of_lt fun e he => hx e (List.mem_filter.1 he).1
      by_cases hp : p k v <;> simp [find, Option.filter_some, hp, hrest]
    · by_cases hp : p k' v <;> simp [find, hp, hk, ih hl]

/-- In a list of ascending keys, the value under a key is the only one. -/
theorem find_eq_some_iff {l : List (κ × α)} (h : Ascending l) (k : κ) (v : α) :
    find k l = some v ↔ (k, v) ∈ l := by
  induction l with
  | nil => simp [find]
  | cons x l ih =>
    obtain ⟨k', v'⟩ := x
    rw [Ascending, List.pairwise_cons] at h
    obtain ⟨hx, hl⟩ := h
    by_cases hk : k = k'
    · subst hk
      have hrest : (k, v) ∉ l := fun hm => by simpa using hx _ hm
      simp [find, hrest, eq_comm]
    · simp [find, hk, ih hl]

/-- In a list of ascending keys, a key is dropped with its one entry. -/
theorem drop_middle {l m : List (κ × α)} {k : κ} {v : α} (h : Ascending (l ++ (k, v) :: m)) :
    drop k (l ++ (k, v) :: m) = l ++ m := by
  have hother : ∀ x ∈ l ++ m, compare k x.1 ≠ .eq := by
    intro x hx heq
    rw [compare_eq_iff] at heq
    rw [Ascending, List.pairwise_append, List.pairwise_cons] at h
    rcases List.mem_append.1 hx with hx | hx
    · simpa [heq] using h.2.2 x hx (k, v) (List.mem_cons_self ..)
    · simpa [heq] using h.2.1.1 x hx
  have hkept : (l ++ m).filter (fun x => compare k x.1 != .eq) = l ++ m :=
    List.filter_eq_self.2 fun x hx => by simpa using hother x hx
  rw [drop, List.filter_append, List.filter_cons_of_neg (by simp), ← List.filter_append, hkept]

end Entries

/-! ## Maps -/

namespace KeyedMap

variable {κ α : Type} [Ord κ]

/-- The entries that pass a test. -/
def filter (p : κ → α → Bool) (m : KeyedMap κ α) : KeyedMap κ α :=
  ⟨m.toList.filter fun e => p e.1 e.2, List.Pairwise.filter _ m.ascending⟩

/-- The map with one entry. -/
def single (k : κ) (v : α) : KeyedMap κ α := ⟨[(k, v)], List.pairwise_singleton ..⟩

/-- Every entry of a map has a property. -/
def All (P : κ → α → Prop) (m : KeyedMap κ α) : Prop := ∀ k v, m.get? k = some v → P k v

theorem eq_empty_of_isEmpty {m : KeyedMap κ α} (h : m.isEmpty) : m = empty := by
  obtain ⟨l, hl⟩ := m
  obtain rfl : l = [] := List.isEmpty_iff.1 h
  rfl

theorem get?_single (k j : κ) (v : α) :
    (single k v).get? j = if compare j k = .eq then some v else none := rfl

variable [Std.LawfulEqOrd κ]

theorem get?_filter (p : κ → α → Bool) (m : KeyedMap κ α) (k : κ) :
    (m.filter p).get? k = (m.get? k).filter (p k) := Entries.find_filter m.ascending p k

theorem get?_filterKeys (p : κ → Bool) (m : KeyedMap κ α) (k : κ) :
    (m.filterKeys p).get? k = if p k then m.get? k else none := by
  have h : (m.filterKeys p).get? k = (m.get? k).filter (fun _ => p k) :=
    get?_filter (fun k _ => p k) m k
  rw [h]
  cases m.get? k <;> simp [Option.filter_some]

theorem get?_eq_some_iff (m : KeyedMap κ α) (k : κ) (v : α) :
    m.get? k = some v ↔ (k, v) ∈ m.toList := Entries.find_eq_some_iff m.ascending k v

theorem mem_keys (m : KeyedMap κ α) (k : κ) : k ∈ m.keys ↔ (m.get? k).isSome := by
  rw [keys, List.mem_map, Option.isSome_iff_exists]
  constructor
  · rintro ⟨⟨k, v⟩, hx, rfl⟩
    exact ⟨v, (m.get?_eq_some_iff k v).2 hx⟩
  · rintro ⟨v, hv⟩
    exact ⟨(k, v), (m.get?_eq_some_iff k v).1 hv, rfl⟩

theorem mem_values (m : KeyedMap κ α) (v : α) : v ∈ m.values ↔ ∃ k, m.get? k = some v := by
  rw [values, List.mem_map]
  constructor
  · rintro ⟨⟨k, v⟩, hx, rfl⟩
    exact ⟨k, (m.get?_eq_some_iff k v).2 hx⟩
  · rintro ⟨k, hk⟩
    exact ⟨(k, v), (m.get?_eq_some_iff k v).1 hk, rfl⟩

theorem keys_nodup (m : KeyedMap κ α) : m.keys.Nodup :=
  List.pairwise_map.2 (m.ascending.imp fun hlt heq => by simp [heq] at hlt)

/-- The first entry is the one under the least key. -/
theorem toList_eq_cons_of_least {m : KeyedMap κ α} {k : κ} {v : α} (hk : m.get? k = some v)
    (hleast : ∀ j ∈ m.keys, compare j k ≠ .lt) : ∃ rest, m.toList = (k, v) :: rest := by
  rw [get?_eq_some_iff] at hk
  have hascending := m.ascending
  cases hl : m.toList with
  | nil => simp [hl] at hk
  | cons x rest =>
    rw [hl, Entries.Ascending, List.pairwise_cons] at hascending
    rw [hl, List.mem_cons] at hk
    rcases hk with rfl | hk
    · exact ⟨rest, rfl⟩
    · have hfirst : x.1 ∈ m.keys := by simp [keys, hl]
      exact absurd (hascending.1 _ hk) (hleast x.1 hfirst)

theorem toList_erase_middle {m : KeyedMap κ α} {k : κ} {v : α} {l r : List (κ × α)}
    (h : m.toList = l ++ (k, v) :: r) : (m.erase k).toList = l ++ r := by
  have hascending := m.ascending
  rw [h] at hascending
  change Entries.drop k m.toList = _
  rw [h]
  exact Entries.drop_middle hascending

theorem All.erase {P : κ → α → Prop} {m : KeyedMap κ α} (h : m.All P) (k : κ) :
    (m.erase k).All P := by
  intro j v hj
  rw [get?_erase] at hj
  split at hj
  · simp at hj
  · exact h j v hj

variable [Std.TransOrd κ]

theorem toList_insert_last {m : KeyedMap κ α} {k : κ} (v : α)
    (h : ∀ x ∈ m.toList, compare x.1 k = .lt) : (m.insert k v).toList = m.toList ++ [(k, v)] :=
  Entries.put_of_lt v h

/-- A key keeps its own entry only, if it has one. -/
theorem filter_key [DecidableEq κ] (m : KeyedMap κ α) (k : κ) :
    m.toList.filter (·.1 = k) = ((m.get? k).map (k, ·)).toList := by
  have hfilter : (m.filter fun j _ => j = k) = (m.get? k).elim empty (single k) :=
    ext_get? fun j => by
      rw [get?_filter]
      by_cases hj : j = k
      · subst hj
        cases m.get? j <;> simp [Option.filter_some, get?_single]
      · cases m.get? j <;> cases m.get? k <;> simp [Option.filter_some, get?_single, hj]
  refine (congrArg toList hfilter).trans ?_
  cases m.get? k <;> rfl

/-- Erasing a key that is not there changes nothing. -/
theorem erase_of_get?_none {m : KeyedMap κ α} {k : κ} (h : m.get? k = none) : m.erase k = m :=
  ext_get? fun j => by
    rw [get?_erase]
    split
    · rename_i hj
      rw [Entries.compare_eq_iff] at hj
      rw [hj, h]
    · rfl

variable {p : κ → α → Bool} {m : KeyedMap κ α} {k : κ} {v : α}

theorem filter_erase (p : κ → α → Bool) (m : KeyedMap κ α) (k : κ) :
    (m.erase k).filter p = (m.filter p).erase k :=
  ext_get? fun j => by
    rw [get?_filter, get?_erase, get?_erase, get?_filter]
    split <;> rfl

theorem filter_insert_of_pos (h : p k v) : (m.insert k v).filter p = (m.filter p).insert k v :=
  ext_get? fun j => by
    rw [get?_filter, get?_insert, get?_insert, get?_filter]
    split
    · rename_i hj
      rw [Entries.compare_eq_iff] at hj
      simp [hj, h]
    · rfl

/-- An entry that fails the test, put over none that passes it, changes nothing. -/
theorem filter_insert_of_neg (h : ¬ p k v) (hm : (m.filter p).get? k = none) :
    (m.insert k v).filter p = m.filter p :=
  ext_get? fun j => by
    rw [get?_filter, get?_insert]
    split
    · rename_i hj
      rw [Entries.compare_eq_iff] at hj
      rw [hj, hm]
      simp [h]
    · rw [get?_filter]

theorem insert_empty (k : κ) (v : α) : (empty : KeyedMap κ α).insert k v = single k v := rfl

theorem erase_single_self (k : κ) (v : α) : (single k v).erase k = empty :=
  ext_get? fun j => by
    rw [get?_erase, get?_single]
    by_cases hj : j = k <;> simp [hj]

theorem erase_single_ne {j : κ} (h : j ≠ k) : (single k v).erase j = single k v :=
  erase_of_get?_none (by simp [get?_single, h])

variable {P : κ → α → Prop}

theorem All.insert (h : m.All P) (hv : P k v) : (m.insert k v).All P := by
  intro j u hj
  rw [get?_insert] at hj
  split at hj
  · rename_i heq
    rw [Entries.compare_eq_iff] at heq
    obtain rfl := Option.some.inj hj
    exact heq ▸ hv
  · exact h j u hj

theorem all_ofList {l : List (κ × α)} (h : ∀ x ∈ l, P x.1 x.2) : (ofList l).All P := by
  have hfold : ∀ m : KeyedMap κ α, m.All P →
      (l.foldl (fun m x => m.insert x.1 x.2) m).All P := by
    induction l with
    | nil => exact fun m hm => hm
    | cons x l ih =>
      rw [List.forall_mem_cons] at h
      exact fun m hm => ih h.2 _ (hm.insert h.1)
  apply hfold
  intro k v hk
  simp at hk

/-! ## Maps of lists -/

/-- A map of a list that names no key twice holds what the list holds. -/
theorem get?_ofList {l : List (κ × α)} (hl : (l.map (·.1)).Nodup) :
    (ofList l).get? k = some v ↔ (k, v) ∈ l := by
  have hfold : ∀ m : KeyedMap κ α, (∀ x ∈ l, m.get? x.1 = none) →
      ((l.foldl (fun m x => m.insert x.1 x.2) m).get? k = some v ↔
        (k, v) ∈ l ∨ m.get? k = some v) := by
    induction l with
    | nil => simp
    | cons x l ih =>
      intro m hm
      rw [List.map_cons, List.nodup_cons] at hl
      rw [List.forall_mem_cons] at hm
      have hother : ∀ y ∈ l, y.1 ≠ x.1 := fun y hy heq =>
        hl.1 (List.mem_map.2 ⟨y, hy, heq⟩)
      rw [List.foldl_cons, ih hl.2 _ fun y hy => by rw [get?_insert_ne _ _ (hother y hy), hm.2 y hy]]
      by_cases hk : k = x.1
      · subst hk
        rw [get?_insert_self, Option.some.injEq, hm.1, List.mem_cons, Prod.ext_iff]
        simp [eq_comm, or_comm]
      · rw [get?_insert_ne _ _ hk, List.mem_cons, Prod.ext_iff]
        simp [hk]
  rw [ofList, hfold empty fun _ _ => get?_empty _]
  simp

/-- A list of a map's entries, in whatever order, makes the map. -/
theorem ofList_eq {l : List (κ × α)} {m : KeyedMap κ α} (hl : (l.map (·.1)).Nodup)
    (h : ∀ k v, (k, v) ∈ l ↔ (k, v) ∈ m.toList) : ofList l = m :=
  ext_get? fun k => Option.ext fun v => by rw [get?_ofList hl, h, get?_eq_some_iff]

theorem ofList_toList (m : KeyedMap κ α) : ofList m.toList = m :=
  ofList_eq m.keys_nodup fun _ _ => Iff.rfl

end KeyedMap

end HuntBoard
