-- Digits read back as the number they were written for, whether they are as many as the
-- number needs, filled up with zeros, or of a fixed count.
import HuntBoard.Text.Digits
import Mathlib.Algebra.Group.Nat.Defs
import Mathlib.Data.List.Basic
import Mathlib.Data.List.Induction

namespace HuntBoard.Text

variable {α β : Type}

/-! ## Readings in sequence -/

/-- What follows a reading goes on with what was read. -/
theorem bind_of_some (a : α) (f : α → Option β) : (some a >>= f) = f a := rfl

theorem bind_eq_of_some {x : Option α} {a : α} (h : x = some a) (f : α → Option β) :
    (x >>= f) = f a := h ▸ rfl

theorem of_bind_eq_some {x : Option α} {f : α → Option β} {b : β} (h : (x >>= f) = some b) :
    ∃ a, x = some a ∧ f a = some b := Option.bind_eq_some_iff.1 h

/-! ## Lists -/

/-- Reading every item succeeds when reading each does. -/
theorem mapM_eq_some_map {read : α → Option β} {f : α → β} {l : List α}
    (h : ∀ a ∈ l, read a = some (f a)) : l.mapM read = some (l.map f) := by
  induction l with
  | nil => rfl
  | cons a l ih =>
    rw [List.forall_mem_cons] at h
    rw [List.mapM_cons, h.1, ih h.2]
    rfl

/-- What was read in full was read item by item. -/
theorem of_mapM_eq_some {read : α → Option β} {l : List α} {bs : List β} (h : l.mapM read = some bs) :
    l.map read = bs.map some := by
  induction l generalizing bs with
  | nil =>
    obtain rfl := Option.some.inj h
    rfl
  | cons a l ih =>
    rw [List.mapM_cons] at h
    obtain ⟨b, hb, hrest⟩ := of_bind_eq_some h
    obtain ⟨bs', hbs', hbs⟩ := of_bind_eq_some hrest
    obtain rfl := Option.some.inj hbs
    rw [List.map_cons, List.map_cons, hb, ih hbs']

/-- A run of characters ends where one of another kind stands. -/
theorem takeWhile_append_of_stop {p : α → Bool} {l rest : List α} (hl : ∀ a ∈ l, p a)
    (hrest : ∀ a ∈ rest.head?, p a = false) : (l ++ rest).takeWhile p = l := by
  rw [List.takeWhile_append_of_pos hl]
  cases rest with
  | nil => simp
  | cons a rest => simp [hrest a rfl]

theorem dropWhile_append_of_stop {p : α → Bool} {l rest : List α} (hl : ∀ a ∈ l, p a)
    (hrest : ∀ a ∈ rest.head?, p a = false) : (l ++ rest).dropWhile p = rest := by
  rw [List.dropWhile_append_of_pos hl]
  cases rest with
  | nil => rfl
  | cons a rest => simp [hrest a rfl]

/-! ## Decimal digits -/

theorem digit?_of_isDigit {c : Char} (h : c.isDigit) : digit? c = some (c.toNat - '0'.toNat) := by
  rw [Char.isDigit, Bool.and_eq_true, decide_eq_true_iff, decide_eq_true_iff] at h
  exact if_pos h

/-- A run of digits is read as what their values make. -/
theorem decimal?_of_isDigit {l : List Char} (hne : l ≠ []) (hl : ∀ c ∈ l, c.isDigit) :
    decimal? l = some (Nat.ofDigitChars 10 l 0) := by
  have hread : l.mapM digit? = some (l.map fun c => c.toNat - '0'.toNat) :=
    mapM_eq_some_map fun c hc => digit?_of_isDigit (hl c hc)
  have hvalue : numberOf 10 (l.map fun c => c.toNat - '0'.toNat) = Nat.ofDigitChars 10 l 0 := by
    simp only [numberOf, Nat.ofDigitChars_eq_foldl, List.foldl_map, Nat.mul_comm]
  rw [decimal?, if_neg (by simpa using hne), hread, Option.map_some, hvalue]

/-- The digits of a number, as many as it needs. -/
theorem toList_toString (n : Nat) : (toString n).toList = Nat.toDigits 10 n := by
  rw [Nat.toString_eq_ofList_toDigits, String.toList_ofList]

theorem isDigit_toDigits (n : Nat) : ∀ c ∈ Nat.toDigits 10 n, c.isDigit := fun _ hc =>
  Nat.isDigit_of_mem_toDigits (by decide) (by decide) hc

theorem decimal?_toDigits (n : Nat) : decimal? (Nat.toDigits 10 n) = some n := by
  rw [decimal?_of_isDigit Nat.toDigits_ne_nil (isDigit_toDigits n), Nat.ofDigitChars_ten_toDigits]

/-- Only zero is written with a zero in front. -/
theorem toDigits_head_zero {n : Nat} (h : (Nat.toDigits 10 n).head? = some '0') : n = 0 := by
  induction n using Nat.strongRecOn with
  | ind n ih =>
    rw [Nat.toDigits_eq_if (by decide)] at h
    split at h
    · rename_i hlt
      simpa using h
    · rename_i hge
      rw [List.head?_append_of_ne_nil _ Nat.toDigits_ne_nil] at h
      have := ih (n / 10) (by omega) h
      omega

/-- A whole number is written as its digits, behind a minus if it is negative. -/
theorem toList_toString_int (n : Int) :
    (toString n).toList = (if n < 0 then ['-'] else []) ++ Nat.toDigits 10 n.natAbs := by
  have hrepr : toString n = n.repr := rfl
  rw [hrepr, Int.repr_eq_if]
  split
  · rename_i h
    have habs : n.toNat = n.natAbs := by omega
    rw [if_neg (by omega), List.nil_append, habs, ← toList_toString]
    rfl
  · rename_i h
    have habs : (-n).toNat = n.natAbs := by omega
    rw [if_pos (by omega), String.toList_append, habs, ← toList_toString]
    rfl

/-! ## Padding -/

theorem isDigit_paddedDecimal (count n : Nat) : ∀ c ∈ paddedDecimal count n, c.isDigit := by
  intro c hc
  rw [paddedDecimal, toList_toString] at hc
  rcases List.mem_append.1 hc with hc | hc
  · rw [List.eq_of_mem_replicate hc]
    rfl
  · exact isDigit_toDigits n c hc

theorem paddedDecimal_ne_nil (count n : Nat) : paddedDecimal count n ≠ [] := by
  rw [paddedDecimal, toList_toString]
  exact List.append_ne_nil_of_right_ne_nil _ Nat.toDigits_ne_nil

theorem decimal?_paddedDecimal (count n : Nat) : decimal? (paddedDecimal count n) = some n := by
  rw [decimal?_of_isDigit (paddedDecimal_ne_nil count n) (isDigit_paddedDecimal count n),
    paddedDecimal, toList_toString, Nat.ofDigitChars_append, Nat.ofDigitChars_replicate_zero,
    Nat.mul_zero, Nat.ofDigitChars_ten_toDigits]

/-! ## A fixed count -/

theorem length_fixedDigits (base count n : Nat) : (fixedDigits base count n).length = count := by
  induction count generalizing n with
  | zero => rfl
  | succ count ih => simp [fixedDigits, ih]

theorem lt_of_mem_fixedDigits {base count n d : Nat} (hbase : 0 < base)
    (hd : d ∈ fixedDigits base count n) : d < base := by
  induction count generalizing n with
  | zero => simp [fixedDigits] at hd
  | succ count ih =>
    rw [fixedDigits] at hd
    rcases List.mem_append.1 hd with hd | hd
    · exact ih hd
    · rw [List.mem_singleton.1 hd]
      exact Nat.mod_lt n hbase

theorem numberOf_concat (base : Nat) (digits : List Nat) (d : Nat) :
    numberOf base (digits ++ [d]) = numberOf base digits * base + d := by
  simp [numberOf]

/-- The digits keep what fits into them. -/
theorem numberOf_fixedDigits (base count n : Nat) :
    numberOf base (fixedDigits base count n) = n % base ^ count := by
  induction count generalizing n with
  | zero => simp [fixedDigits, numberOf, Nat.mod_one]
  | succ count ih =>
    rw [fixedDigits, numberOf_concat, ih, Nat.pow_succ', Nat.mod_mul, Nat.mul_comm, Nat.add_comm]

/-- A number is less than one more digit could make it. -/
theorem numberOf_lt {base : Nat} {digits : List Nat} (h : ∀ d ∈ digits, d < base) :
    numberOf base digits < base ^ digits.length := by
  induction digits using List.reverseRecOn with
  | nil => simp [numberOf]
  | append_singleton digits d ih =>
    rw [List.forall_mem_append, List.forall_mem_singleton] at h
    have hrest := ih h.1
    calc
      numberOf base (digits ++ [d]) < (numberOf base digits + 1) * base := by
        rw [numberOf_concat, Nat.add_mul]
        omega
      _ ≤ base ^ digits.length * base := Nat.mul_le_mul_right _ hrest
      _ = base ^ (digits ++ [d]).length := by rw [List.length_append, List.length_singleton, Nat.pow_succ]

theorem hexDigit?_lowerHexDigit : ∀ d < 16, hexDigit? (lowerHexDigit d) = some d := by decide

theorem digit?_lowerHexDigit : ∀ d < 10, digit? (lowerHexDigit d) = some d := by decide

theorem isDigit_lowerHexDigit : ∀ d < 10, (lowerHexDigit d).isDigit := by decide

/-- A number that fits is read back from its hexadecimal digits. -/
theorem hex?_fixedHex {count n : Nat} (hn : n < 16 ^ count) : hex? (fixedHex count n) = some n := by
  have hread : (fixedHex count n).mapM hexDigit? = some (fixedDigits 16 count n) := by
    rw [fixedHex, List.mapM_map, mapM_eq_some_map (f := id), List.map_id]
    intro d hd
    exact hexDigit?_lowerHexDigit d (lt_of_mem_fixedDigits (by decide) hd)
  rw [hex?, hread, Option.map_some, numberOf_fixedDigits, Nat.mod_eq_of_lt hn]

theorem length_fixedDecimal (count n : Nat) : (fixedDecimal count n).length = count := by
  rw [fixedDecimal, List.length_map, length_fixedDigits]

theorem isDigit_fixedDecimal (count n : Nat) : ∀ c ∈ fixedDecimal count n, c.isDigit := by
  intro c hc
  obtain ⟨d, hd, rfl⟩ := List.mem_map.1 hc
  exact isDigit_lowerHexDigit d (lt_of_mem_fixedDigits (by decide) hd)

theorem fixedDecimal_head {count : Nat} (hcount : 0 < count) (n : Nat) :
    ∃ c l, fixedDecimal count n = c :: l ∧ c.isDigit := by
  have hne : fixedDecimal count n ≠ [] := by
    rw [← List.length_pos_iff, length_fixedDecimal]
    exact hcount
  obtain ⟨c, l, hdigits⟩ := List.exists_cons_of_ne_nil hne
  exact ⟨c, l, hdigits, isDigit_fixedDecimal count n c (by simp [hdigits])⟩

/-- A number that fits is read back from its decimal digits. -/
theorem decimal?_fixedDecimal {count n : Nat} (hcount : 0 < count) (hn : n < 10 ^ count) :
    decimal? (fixedDecimal count n) = some n := by
  obtain ⟨c, l, hdigits, -⟩ := fixedDecimal_head hcount n
  have hne : fixedDecimal count n ≠ [] := by simp [hdigits]
  have hread : (fixedDecimal count n).mapM digit? = some (fixedDigits 10 count n) := by
    rw [fixedDecimal, List.mapM_map, mapM_eq_some_map (f := id), List.map_id]
    intro d hd
    exact digit?_lowerHexDigit d (lt_of_mem_fixedDigits (by decide) hd)
  rw [decimal?, if_neg (by simpa using hne), hread, Option.map_some, numberOf_fixedDigits,
    Nat.mod_eq_of_lt hn]

/-! ## Hexadecimal digits -/

theorem hexDigit?_digitChar : ∀ d < 16, hexDigit? (Nat.digitChar d) = some d := by decide

theorem hexDigit?_lt {c : Char} {d : Nat} (h : hexDigit? c = some d) : d < 16 := by
  unfold hexDigit? at h
  simp only [Char.le_def, UInt32.le_iff_toNat_le, Char.toNat] at h
  split at h
  · obtain rfl := Option.some.inj h
    simp at *
    omega
  · split at h
    · obtain rfl := Option.some.inj h
      simp at *
      omega
    · split at h
      · obtain rfl := Option.some.inj h
        simp at *
        omega
      · cases h

/-- The digits of a number are digits of its base. -/
theorem mem_toDigits {base n : Nat} (hbase : 1 < base) :
    ∀ c ∈ Nat.toDigits base n, ∃ d < base, c = d.digitChar := by
  induction n using Nat.strongRecOn with
  | ind n ih =>
    rw [Nat.toDigits_eq_if hbase]
    split
    · next hn => simpa using ⟨n, hn, rfl⟩
    · next hn =>
      refine List.forall_mem_append.2 ⟨ih (n / base) (Nat.div_lt_self (by omega) hbase), ?_⟩
      simpa using ⟨n % base, Nat.mod_lt _ (by omega), rfl⟩

theorem hex?_toDigits (n : Nat) : hex? (Nat.toDigits 16 n) = some n := by
  induction n using Nat.strongRecOn with
  | ind n ih =>
    rw [Nat.toDigits_eq_if (by decide)]
    split
    · next hn => simp [hex?, hexDigit?_digitChar n hn, numberOf]
    · next hn =>
      obtain ⟨ds, hds, hvalue⟩ := Option.map_eq_some_iff.1 (ih (n / 16) (by omega))
      rw [hex?, List.mapM_append, bind_eq_of_some hds]
      simp [hexDigit?_digitChar (n % 16) (by omega), numberOf_concat, hvalue]
      omega

end HuntBoard.Text
