-- A printed instant reads back. The loose reader takes it in every year there is, the strict
-- reader in the years of four digits; it refuses all others.
import HuntBoard.Instant.Loose
import HuntBoard.Proofs.Digits

namespace HuntBoard

open HuntBoard.Text

/-! ## Dates -/

theorem daysIn_le (year : Int) (month : Nat) : daysIn year month ≤ 31 := by
  unfold daysIn
  split <;> first | omega | (split <;> omega)

theorem daysIn_of_lt (year : Int) {month : Nat} (h : 12 < month) : daysIn year month = 0 := by
  unfold daysIn
  split <;> omega

namespace Date

variable (d : Date)

theorem month_le : d.month ≤ 12 := by
  by_contra h
  have hzero := daysIn_of_lt d.year (Nat.lt_of_not_le h)
  have hday := d.day_le
  have hpos := d.day_pos
  omega

theorem of?_self : of? d.year d.month d.day = some d :=
  dif_pos ⟨d.first_le, d.le_last, d.day_pos, d.day_le⟩

end Date

/-! ## Instants on the clock of UTC -/

namespace Instant

variable (t : Instant)

/-- The second of the minute as it is written, 60 in a leap second. -/
def clockSecond : Nat := t.second % 60 + if t.isLeap then 1 else 0

theorem hour_lt : t.hour < 24 := by
  have := t.second_lt
  unfold hour
  omega

theorem minute_lt : t.minute < 60 := Nat.mod_lt _ (by decide)

theorem clockSecond_le : t.clockSecond ≤ 60 := by
  unfold clockSecond
  split <;> omega

theorem clock_second : (t.hour * 60 + t.minute) * 60 + t.second % 60 = t.second := by
  have := t.second_lt
  unfold hour minute
  omega

/-- A leap second is told by its 60, and nothing else is. -/
theorem clockSecond_split :
    (if t.clockSecond = 60 then (59, t.nanos % 1000000000 + 1000000000)
      else (t.clockSecond, t.nanos % 1000000000)) = (t.second % 60, t.nanos) := by
  have hnanos := t.nanos_lt
  unfold clockSecond isLeap
  by_cases h : 1000000000 ≤ t.nanos
  · have hend := t.leap_at_end h
    simp only [decide_eq_true h, hend, ↓reduceIte, Prod.mk.injEq, true_and]
    omega
  · have hless : t.second % 60 < 60 := Nat.mod_lt _ (by decide)
    simp only [decide_eq_false h, Bool.false_eq_true, ↓reduceIte, Nat.add_zero, if_neg (Nat.ne_of_lt hless),
      Nat.mod_eq_of_lt (Nat.lt_of_not_le h)]

/-- The parts that are written make the instant. -/
theorem ofLocal?_self :
    ofLocal? t.date t.hour t.minute t.clockSecond (t.nanos % 1000000000) 0 = some t := by
  have hhour := t.hour_lt
  have hminute := t.minute_lt
  have hclock : t.hour < 24 ∧ t.minute < 60 ∧ t.clockSecond ≤ 60 ∧ t.nanos % 1000000000 < 1000000000 :=
    ⟨hhour, hminute, t.clockSecond_le, Nat.mod_lt _ (by decide)⟩
  have hday : ¬ ((t.hour : Int) * 60 + t.minute - 0 < 0) ∧ (t.hour : Int) * 60 + t.minute - 0 < 1440 := by
    omega
  have hminutes : (((t.hour : Int) * 60 + t.minute - 0) % 1440).toNat = t.hour * 60 + t.minute := by
    omega
  simp only [ofLocal?, if_pos hclock, if_neg hday.1, if_pos hday.2, hminutes, clockSecond_split,
    clock_second, Option.bind_some]
  exact dif_pos ⟨t.second_lt, t.nanos_lt, t.leap_at_end⟩

/-! ## Strict reading -/

theorem digits?_fixedDecimal {count n : Nat} (hcount : 0 < count) (hn : n < 10 ^ count)
    (l : List Char) : digits? count (fixedDecimal count n ++ l) = some (n, l) := by
  have hlength := length_fixedDecimal count n
  have hle : count ≤ (fixedDecimal count n ++ l).length := by
    rw [List.length_append, hlength]
    omega
  rw [digits?, if_pos hle, List.take_left' hlength, List.drop_left' hlength,
    decimal?_fixedDecimal hcount hn, Option.map_some]

theorem fraction?_fixedDecimal {count n : Nat} (hcount : 0 < count) (hmost : count ≤ 9)
    (hn : n < 10 ^ count) {rest : List Char} (hrest : ∀ c ∈ rest.head?, c.isDigit = false) :
    fraction? (fixedDecimal count n ++ rest) = some (n * Nat.pow 10 (9 - count), rest) := by
  have hlength := length_fixedDecimal count n
  have htake : (fixedDecimal count n).take 9 = fixedDecimal count n :=
    List.take_of_length_le (by omega)
  simp only [fraction?, takeWhile_append_of_stop (isDigit_fixedDecimal count n) hrest,
    dropWhile_append_of_stop (isDigit_fixedDecimal count n) hrest, htake, hlength,
    decimal?_fixedDecimal hcount hn, Option.map_some]

/-- The fraction of a second keeps every nanosecond. -/
theorem nanos?_fractionText {n : Nat} (hn : n < 1000000000) {rest : List Char}
    (hrest : ∀ c ∈ rest.head?, c.isDigit = false ∧ c ≠ '.') :
    nanos? (fractionText n ++ rest) = some (n, rest) := by
  have hdigit : ∀ c ∈ rest.head?, c.isDigit = false := fun c hc => (hrest c hc).1
  have hpoint : ∀ l, nanos? ('.' :: l) = fraction? l := fun l => rfl
  unfold fractionText
  split
  · rename_i hzero
    rw [hzero, List.nil_append]
    unfold nanos?
    split
    · rename_i r _
      exact absurd rfl (hrest '.' rfl).2
    · rfl
  split
  · rename_i hmilli
    rw [List.cons_append, hpoint, fraction?_fixedDecimal (by decide) (by decide) (by omega) hdigit]
    simp only [Option.some.injEq, Prod.mk.injEq, and_true, Nat.reduceSub, Nat.pow_eq, Nat.reducePow]
    omega
  split
  · rename_i hmicro
    rw [List.cons_append, hpoint, fraction?_fixedDecimal (by decide) (by decide) (by omega) hdigit]
    simp only [Option.some.injEq, Prod.mk.injEq, and_true, Nat.reduceSub, Nat.pow_eq, Nat.reducePow]
    omega
  · rw [List.cons_append, hpoint, fraction?_fixedDecimal (by decide) (by decide) (by omega) hdigit]
    simp

/-- The characters behind the year. -/
def stampRest : List Char :=
  '-' :: (fixedDecimal 2 t.date.month ++ '-' :: (fixedDecimal 2 t.date.day ++ 'T' ::
    (fixedDecimal 2 t.hour ++ ':' :: (fixedDecimal 2 t.minute ++ ':' ::
      (fixedDecimal 2 t.clockSecond ++ (fractionText (t.nanos % 1000000000) ++ ['Z']))))))

theorem stamp_toList : t.stamp.toList = yearText t.year ++ t.stampRest := by
  simp only [stamp, stampText, stampRest, clockSecond, String.toList_ofList, List.append_assoc,
    List.cons_append, List.nil_append]

theorem date_lt : t.date.month < 10 ^ 2 ∧ t.date.day < 10 ^ 2 := by
  have hmonth := t.date.month_le
  have hday := Nat.le_trans t.date.day_le (daysIn_le ..)
  omega

theorem clock_lt : t.hour < 10 ^ 2 ∧ t.minute < 10 ^ 2 ∧ t.clockSecond < 10 ^ 2 := by
  have hhour := t.hour_lt
  have hminute := t.minute_lt
  have hsecond := t.clockSecond_le
  omega

/-- An instant in a year of four digits is read back strictly. -/
theorem ofStamp?_stamp (hlow : 0 ≤ t.year) (hhigh : t.year ≤ 9999) : ofStamp? t.stamp = some t := by
  have hyear : yearText t.year = fixedDecimal 4 t.year.toNat := if_pos ⟨hlow, hhigh⟩
  have hfit : t.year.toNat < 10 ^ 4 := by omega
  have hvalue : ((t.year.toNat : Nat) : Int) = t.date.year := Int.toNat_of_nonneg hlow
  have hzone : zone? (char? ':') ['Z'] = some (0, []) := rfl
  have hfraction := nanos?_fractionText (Nat.mod_lt t.nanos (by decide : 1000000000 > 0))
    (by simp : ∀ c ∈ ['Z'].head?, c.isDigit = false ∧ c ≠ '.')
  have hmark : ∀ c l, char? c (c :: l) = some l := fun c l => if_pos rfl
  have hend : ∀ l, dateEnd? ('T' :: l) = some l := fun l => rfl
  obtain ⟨hmonth, hday⟩ := t.date_lt
  obtain ⟨hhour, hminute, hsecond⟩ := t.clock_lt
  rw [ofStamp?, stamp_toList, hyear]
  simp only [ofStampText?, stampRest, digits?_fixedDecimal (by decide : 0 < 4) hfit,
    digits?_fixedDecimal (by decide : 0 < 2) hmonth, digits?_fixedDecimal (by decide : 0 < 2) hday,
    digits?_fixedDecimal (by decide : 0 < 2) hhour, digits?_fixedDecimal (by decide : 0 < 2) hminute,
    digits?_fixedDecimal (by decide : 0 < 2) hsecond, hmark, hend, hfraction, hzone, hvalue,
    Date.of?_self, ofLocal?_self, bind_of_some, List.isEmpty_nil, ↓reduceIte]

/-- An instant in any other year is not. -/
theorem ofStamp?_stamp_eq_none (h : ¬ (0 ≤ t.year ∧ t.year ≤ 9999)) : ofStamp? t.stamp = none := by
  have hyear : ∃ c l, t.stamp.toList = c :: l ∧ digit? c = none := by
    rw [stamp_toList, yearText, if_neg h]
    split
    · exact ⟨_, _, rfl, rfl⟩
    · exact ⟨_, _, rfl, rfl⟩
  obtain ⟨c, l, hstamp, hc⟩ := hyear
  have hdigits : digits? 4 (c :: l) = none := by
    unfold digits?
    split
    · rw [List.take_succ_cons, decimal?, if_neg (by simp), List.mapM_cons, hc]
      rfl
    · rfl
  rw [ofStamp?, hstamp, ofStampText?, hdigits]
  rfl

/-! ## Loose reading -/

theorem isBlank_of_isDigit {c : Char} (hc : c.isDigit) : isBlank c = false := by
  rw [Char.isDigit, Bool.and_eq_true, decide_eq_true_iff, decide_eq_true_iff] at hc
  have hlow : 48 ≤ c.toNat := hc.1
  have hhigh : c.toNat ≤ 57 := hc.2
  simp only [isBlank, Bool.or_eq_false_iff, Bool.and_eq_false_iff, decide_eq_false_iff_not,
    beq_eq_false_iff_ne, ne_eq]
  omega

theorem skipBlanks_cons {c : Char} (hc : isBlank c = false) (l : List Char) :
    skipBlanks (c :: l) = c :: l := List.dropWhile_cons_of_neg (by simp [hc])

theorem skipBlanks_fixedDecimal {count : Nat} (hcount : 0 < count) (n : Nat) (l : List Char) :
    skipBlanks (fixedDecimal count n ++ l) = fixedDecimal count n ++ l := by
  obtain ⟨c, ds, hdigits, hc⟩ := fixedDecimal_head hcount n
  rw [hdigits]
  exact skipBlanks_cons (isBlank_of_isDigit hc) _

theorem number?_fixedDecimal {count n : Nat} (hcount : 0 < count) (hn : n < 10 ^ count)
    {rest : List Char} (hrest : ∀ c ∈ rest.head?, c.isDigit = false) :
    number? count (fixedDecimal count n ++ rest) = some (n, rest) := by
  have hmost : (fixedDecimal count n).take count = fixedDecimal count n :=
    List.take_of_length_le (Nat.le_of_eq (length_fixedDecimal count n))
  simp only [number?, skipBlanks_fixedDecimal hcount,
    takeWhile_append_of_stop (isDigit_fixedDecimal count n) hrest, hmost,
    decimal?_fixedDecimal hcount hn, Option.map_some, List.drop_left]

theorem signed_paddedDecimal (count n : Nat) {rest : List Char}
    (hrest : ∀ c ∈ rest.head?, c.isDigit = false) :
    looseYear?.signed (paddedDecimal count n ++ rest) = some (n, rest) := by
  simp only [looseYear?.signed, takeWhile_append_of_stop (isDigit_paddedDecimal count n) hrest,
    decimal?_paddedDecimal, Option.map_some, List.drop_left]

/-- Any year is read back loosely. -/
theorem looseYear?_yearText (y : Int) {rest : List Char}
    (hrest : ∀ c ∈ rest.head?, c.isDigit = false) :
    looseYear? (yearText y ++ rest) = some (y, rest) := by
  unfold yearText
  split
  · rename_i h
    have hfit : y.toNat < 10 ^ 4 := by omega
    have hvalue : ((y.toNat : Nat) : Int) = y := Int.toNat_of_nonneg h.1
    have hsign : ∀ c l, c.isDigit = false → fixedDecimal 4 y.toNat ++ rest ≠ c :: l := by
      intro c l hc heq
      obtain ⟨d, ds, hdigits, hd⟩ := fixedDecimal_head (by decide : 0 < 4) y.toNat
      rw [hdigits, List.cons_append] at heq
      rw [(List.cons.inj heq).1, hc] at hd
      simp at hd
    rw [looseYear?, skipBlanks_fixedDecimal (by decide)]
    split
    · next heq => exact absurd heq (hsign _ _ rfl)
    · next heq => exact absurd heq (hsign _ _ rfl)
    · simp only [number?_fixedDecimal (by decide : 0 < 4) hfit hrest, Option.map_some, hvalue]
  · split
    · have hvalue : -(y.natAbs : Int) = y := by omega
      rw [List.cons_append, looseYear?, skipBlanks_cons rfl]
      simp only [signed_paddedDecimal 4 _ hrest, Option.map_some, hvalue]
    · have hvalue : (y.natAbs : Int) = y := by omega
      rw [List.cons_append, looseYear?, skipBlanks_cons rfl]
      simp only [signed_paddedDecimal 4 _ hrest, Option.map_some, hvalue]

theorem number?_mark {n : Nat} (hn : n < 10 ^ 2) {c : Char} (hc : c.isDigit = false) (l : List Char) :
    number? 2 (fixedDecimal 2 n ++ c :: l) = some (n, c :: l) :=
  number?_fixedDecimal (by decide) hn (by simpa using hc)

theorem fractionText_head (n : Nat) : ∀ c ∈ (fractionText n ++ ['Z']).head?, c.isDigit = false := by
  unfold fractionText
  split_ifs <;> simp

/-- Every instant is read back loosely. -/
theorem ofLoose?_stamp : ofLoose? t.stamp = some t := by
  obtain ⟨hmonth, hday⟩ := t.date_lt
  obtain ⟨hhour, hminute, hsecond⟩ := t.clock_lt
  have hyear : looseYear? (yearText t.year ++ t.stampRest) = some (t.year, t.stampRest) :=
    looseYear?_yearText t.year (by simp [stampRest])
  have hseconds := number?_fixedDecimal (by decide : 0 < 2) hsecond
    (fractionText_head (t.nanos % 1000000000))
  have hfraction := nanos?_fractionText (Nat.mod_lt t.nanos (by decide : 1000000000 > 0))
    (by simp : ∀ c ∈ ['Z'].head?, c.isDigit = false ∧ c ≠ '.')
  have hzone : looseZone? (skipBlanks ['Z']) = some (0, []) := rfl
  have hmark : ∀ c l, isBlank c = false → mark? c (c :: l) = some l := fun c l hc => by
    rw [mark?, skipBlanks_cons hc]
    exact if_pos rfl
  have hend : ∀ l, dateEnd? ('T' :: l) = some l := fun l => rfl
  have hnone : skipBlanks [] = [] := rfl
  have hdate : Date.of? t.year t.date.month t.date.day = some t.date := t.date.of?_self
  rw [ofLoose?, stamp_toList, ofLooseText?, hyear]
  simp only [stampRest, number?_mark hmonth (by decide : '-'.isDigit = false),
    number?_mark hday (by decide : 'T'.isDigit = false), number?_mark hhour (by decide : ':'.isDigit = false),
    number?_mark hminute (by decide : ':'.isDigit = false), hseconds, hmark '-' _ rfl, hmark ':' _ rfl, hend,
    hfraction, hzone, hnone, hdate, ofLocal?_self, bind_of_some, List.isEmpty_nil, ↓reduceIte]

/-! ## Blanks -/

theorem yearText_head (y : Int) : ∃ c l, yearText y = c :: l ∧ isBlank c = false := by
  unfold yearText
  split
  · obtain ⟨c, l, hdigits, hc⟩ := fixedDecimal_head (by decide : 0 < 4) y.toNat
    exact ⟨c, l, hdigits, isBlank_of_isDigit hc⟩
  · split
    · exact ⟨_, _, rfl, rfl⟩
    · exact ⟨_, _, rfl, rfl⟩

theorem stamp_head : ∃ c l, t.stamp.toList = c :: l ∧ isBlank c = false := by
  obtain ⟨c, l, hyear, hc⟩ := yearText_head t.year
  exact ⟨c, l ++ t.stampRest, by rw [stamp_toList, hyear, List.cons_append], hc⟩

theorem isAllBlank_stamp : isAllBlank t.stamp = false := by
  obtain ⟨c, l, hstamp, hc⟩ := t.stamp_head
  rw [isAllBlank, hstamp, List.all_cons, hc, Bool.false_and]

/-- No blank stands at either end of a printed instant. -/
theorem trim_stamp : trim t.stamp = t.stamp := by
  obtain ⟨c, l, hstamp, hc⟩ := t.stamp_head
  have hend : t.stamp.toList = t.stampText ++ ['Z'] := String.toList_ofList
  have hfront : t.stamp.toList.dropWhile isBlank = t.stamp.toList := by
    rw [hstamp, List.dropWhile_cons_of_neg (by simp [hc])]
  have hback : t.stamp.toList.reverse.dropWhile isBlank = t.stamp.toList.reverse := by
    rw [hend, List.reverse_append]
    rfl
  rw [trim, trimBlanks, hfront, hback, List.reverse_reverse, String.ofList_toList]

end Instant

end HuntBoard
