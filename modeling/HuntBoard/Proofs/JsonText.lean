-- The shortest form of a JSON value reads back as the value, provided that its numbers are
-- whole numbers of 64 bits and that it does not nest too deep.
import HuntBoard.Json.Printer
import HuntBoard.Json.Reader
import HuntBoard.Proofs.Digits
import HuntBoard.Proofs.KeyedMap

namespace HuntBoard.Json

open HuntBoard.Text

/-! ## Values that are written in full -/

/-- A value of which the written form loses nothing: no number but whole ones of 64 bits,
the members of an object in the order of their names, and at most `room` arrays and objects
within each other. -/
inductive Plain : Nat → Json → Prop
  | null {room : Nat} : Plain room .null
  | bool {room : Nat} (b : Bool) : Plain room (.bool b)
  | int {room : Nat} {n : Int} (hlow : -9223372036854775808 ≤ n) (hhigh : n ≤ 18446744073709551615) :
      Plain room (.int n)
  | str {room : Nat} (s : String) : Plain room (.str s)
  | arr {room : Nat} {items : List Json} (h : ∀ j ∈ items, Plain room j) :
      Plain (room + 1) (.arr items)
  | obj {room : Nat} {members : List (String × Json)} (hnames : Entries.Ascending members)
      (h : ∀ m ∈ members, Plain room m.2) : Plain (room + 1) (.obj members)

/-! ## Texts in quotes -/

theorem fourHex?_fixedHex {n : Nat} (hn : n < 0x10000) (l : List Char) :
    fourHex? (fixedHex 4 n ++ l) = some (n, l) := by
  obtain ⟨a, b, c, d, hdigits⟩ : ∃ a b c d, fixedHex 4 n = [a, b, c, d] := ⟨_, _, _, _, rfl⟩
  have hread : hex? [a, b, c, d] = some n := hdigits ▸ hex?_fixedHex hn
  simp only [hdigits, List.cons_append, List.nil_append, fourHex?, hread, Option.map_some]

theorem unicodePiece?_fixedHex {c : Char} (hc : c.toNat < 0x20) (l : List Char) :
    unicodePiece? (fixedHex 4 c.toNat ++ l) = some (some c, l) := by
  have hhalf : c.toNat < 0xD800 ∨ 0xE000 ≤ c.toNat := by omega
  rw [unicodePiece?, fourHex?_fixedHex (by omega)]
  simp only [Option.bind_eq_bind, Option.bind_some, if_pos hhalf, Char.ofNat_toNat]

/-- A character is one piece, escaped or not. -/
theorem pieces?_escapeChar (fuel : Nat) (c : Char) (l : List Char) :
    pieces? (fuel + 1) (escapeChar c ++ l) =
      (pieces? fuel l).map fun p => (some c :: p.1, p.2) := by
  have hbind : ∀ o : Option (List Piece × List Char),
      (o >>= fun p => some (some c :: p.1, p.2)) = o.map fun p => (some c :: p.1, p.2) := by
    intro o
    cases o <;> rfl
  unfold escapeChar
  split
  · next h => subst h; exact hbind _
  split
  · next h => subst h; exact hbind _
  split
  · next h => subst h; exact hbind _
  split
  · next h => subst h; exact hbind _
  split
  · next h => subst h; exact hbind _
  split
  · next h => subst h; exact hbind _
  split
  · next h => subst h; exact hbind _
  split
  · next h =>
    simp only [List.cons_append, List.nil_append, pieces?, Char.reduceEq, ↓reduceIte,
      unicodePiece?_fixedHex h]
    exact hbind _
  · next hquote hslash _ _ _ _ _ hlow =>
    simp only [List.cons_append, List.nil_append, pieces?, if_neg hquote, if_neg hslash, if_neg hlow]
    exact hbind _

theorem pieces?_escaped (l rest : List Char) (fuel : Nat) (hfuel : l.length < fuel) :
    pieces? fuel (l.flatMap escapeChar ++ '"' :: rest) = some (l.map some, rest) := by
  induction l generalizing fuel with
  | nil =>
    obtain ⟨fuel, rfl⟩ := Nat.exists_eq_add_one_of_ne_zero (Nat.ne_of_gt hfuel)
    rfl
  | cons c l ih =>
    obtain ⟨fuel, rfl⟩ := Nat.exists_eq_add_one_of_ne_zero (Nat.ne_of_gt (Nat.zero_lt_of_lt hfuel))
    have hrest := ih fuel (by simpa using hfuel)
    rw [List.flatMap_cons, List.append_assoc, pieces?_escapeChar, hrest]
    rfl

theorem length_escapeChar_pos (c : Char) : 0 < (escapeChar c).length := by
  unfold escapeChar
  split_ifs <;> simp

theorem length_le_escaped (l : List Char) : l.length ≤ (l.flatMap escapeChar).length := by
  induction l with
  | nil => exact Nat.le_refl 0
  | cons c l ih =>
    have hc := length_escapeChar_pos c
    rw [List.flatMap_cons, List.length_append, List.length_cons]
    omega

/-- A quoted text is read back, up to its closing quote. -/
theorem quotedText?_quote (s : String) (rest : List Char) :
    quotedText? (s.toList.flatMap escapeChar ++ '"' :: rest) = some (some s, rest) := by
  have hfuel := length_le_escaped s.toList
  have hall : s.toList.mapM (id ∘ some) = some (s.toList.map id) :=
    mapM_eq_some_map fun _ _ => rfl
  have htext : textOf? (s.toList.map some) = some s := by
    rw [textOf?, List.mapM_map, hall, List.map_id, Option.map_some, String.ofList_toList]
  rw [quotedText?, pieces?_escaped _ _ _ (by simp only [List.length_append]; omega),
    Option.map_some]
  exact congrArg (fun t => some (t, rest)) htext

/-! ## Numbers -/

/-- What may stand behind a value in a text without blanks. -/
def Closes (rest : List Char) : Prop := ∀ c ∈ rest.head?, c = ',' ∨ c = ']' ∨ c = '\x7d'

theorem Closes.head {rest : List Char} (h : Closes rest) {p : Char → Bool}
    (hp : p ',' = false ∧ p ']' = false ∧ p '\x7d' = false) : ∀ c ∈ rest.head?, p c = false := by
  intro c hc
  rcases h c hc with rfl | rfl | rfl
  · exact hp.1
  · exact hp.2.1
  · exact hp.2.2

theorem fractionDigits?_of_closes {rest : List Char} (h : Closes rest) :
    fractionDigits? rest = some ([], rest) := by
  unfold fractionDigits?
  split
  · simp [Closes] at h
  · rfl

theorem exponent?_of_closes {rest : List Char} (h : Closes rest) :
    exponent? rest = some (none, rest) := by
  cases rest with
  | nil => rfl
  | cons c rest =>
    have hc : ¬ (c = 'e' ∨ c = 'E') := by
      have hnone := h.head (p := fun c => c = 'e' ∨ c = 'E') (by decide) c rfl
      simpa using hnone
    exact if_neg hc

theorem number?_toDigits (negative : Bool) (n : Nat) {rest : List Char} (h : Closes rest) :
    number? negative (Nat.toDigits 10 n ++ rest) =
      some (numberValue negative (Nat.toDigits 10 n) [] none, rest) := by
  have hstop := h.head (p := Char.isDigit) (by decide)
  have hzero : ¬ ((Nat.toDigits 10 n).isEmpty ||
      ((Nat.toDigits 10 n).head? == some '0' && (Nat.toDigits 10 n).length > 1)) := by
    have hne : (Nat.toDigits 10 n).isEmpty = false := by simp [Nat.toDigits_ne_nil]
    rw [hne, Bool.false_or, Bool.and_eq_true, beq_iff_eq, decide_eq_true_iff]
    rintro ⟨hhead, hlength⟩
    obtain rfl := toDigits_head_zero hhead
    simp at hlength
  rw [number?]
  simp only [takeWhile_append_of_stop (isDigit_toDigits n) hstop,
    dropWhile_append_of_stop (isDigit_toDigits n) hstop, if_neg hzero,
    fractionDigits?_of_closes h, exponent?_of_closes h, Option.bind_eq_bind, Option.bind_some]

/-- Digits stand for their number, with the minus in front of them. -/
theorem numberValue_toDigits {n : Int} (hlow : -9223372036854775808 ≤ n)
    (hhigh : n ≤ 18446744073709551615) :
    numberValue (decide (n < 0)) (Nat.toDigits 10 n.natAbs) [] none = .int n := by
  have hsigned : (if decide (n < 0) then -(n.natAbs : Int) else n.natAbs) = n := by
    split
    · rename_i h
      have := of_decide_eq_true h
      omega
    · rename_i h
      have : ¬ n < 0 := by simpa using h
      omega
  have hminus : (!(decide (n < 0) && n.natAbs == 0)) = true := by
    by_cases h : n < 0
    · simp [h, Int.ne_of_lt h]
    · simp [h]
  simp only [numberValue, List.append_nil, decimal?_toDigits, Option.getD_some, hsigned, hminus,
    List.isEmpty_nil, Option.isNone_none, Bool.and_self, hlow, hhigh, decide_true, ↓reduceIte]

theorem chars_int (n : Int) :
    (Json.int n).chars = (if n < 0 then ['-'] else []) ++ Nat.toDigits 10 n.natAbs :=
  toList_toString_int n

/-! ## Values -/

/-- At some depth, a value is read back from its text wherever the text stands. Each
character is worth three steps, so that opening and closing an array or an object, and the
commas in it, pay for themselves. -/
def ReadBack (depth : Nat) (j : Json) : Prop :=
  ∀ (fuel : Nat) (rest : List Char), 3 * j.chars.length ≤ fuel → Closes rest →
    value? fuel depth (j.chars ++ rest) = some (j, rest)

theorem readBack_str (depth : Nat) (s : String) : ReadBack depth (.str s) := by
  intro fuel rest hfuel _
  obtain ⟨fuel, rfl⟩ : ∃ n, fuel = n + 1 :=
    Nat.exists_eq_add_one_of_ne_zero (by simp only [chars, quote, List.length_cons] at hfuel; omega)
  have hread := quotedText?_quote s rest
  simp only [chars, quote, List.cons_append, List.append_assoc, List.nil_append, value?, ↓reduceIte,
    hread, Option.map_some, Option.getD_some]

theorem ne_of_isDigit {c d : Char} (hc : c.isDigit) (hd : d.isDigit = false) : c ≠ d := by
  rintro rfl
  simp [hd] at hc

theorem value?_of_isDigit (fuel depth : Nat) {c : Char} (hc : c.isDigit) (l : List Char) :
    value? (fuel + 1) depth (c :: l) = number? false (c :: l) := by
  rw [value?, if_neg (ne_of_isDigit hc rfl), if_neg (ne_of_isDigit hc rfl),
    if_neg (ne_of_isDigit hc rfl), if_neg (ne_of_isDigit hc rfl), if_neg (ne_of_isDigit hc rfl),
    if_neg (ne_of_isDigit hc rfl), if_neg (ne_of_isDigit hc rfl)]

theorem readBack_int (depth : Nat) {n : Int} (hlow : -9223372036854775808 ≤ n)
    (hhigh : n ≤ 18446744073709551615) : ReadBack depth (.int n) := by
  intro fuel rest hfuel hrest
  have hvalue := numberValue_toDigits hlow hhigh
  obtain ⟨c, ds, hdigits⟩ := List.exists_cons_of_ne_nil (Nat.toDigits_ne_nil (n := n.natAbs) (b := 10))
  obtain ⟨fuel, rfl⟩ : ∃ m, fuel = m + 1 := by
    apply Nat.exists_eq_add_one_of_ne_zero
    rw [chars_int, hdigits, List.length_append, List.length_cons] at hfuel
    omega
  rw [chars_int]
  by_cases hneg : n < 0
  · rw [decide_eq_true hneg] at hvalue
    simp only [if_pos hneg, List.cons_append, List.nil_append, value?, Char.reduceEq, ↓reduceIte,
      number?_toDigits true _ hrest, hvalue]
  · rw [decide_eq_false hneg] at hvalue
    have hc : c.isDigit := isDigit_toDigits n.natAbs c (by simp [hdigits])
    rw [if_neg hneg, List.nil_append, hdigits, List.cons_append, value?_of_isDigit fuel depth hc,
      ← List.cons_append, ← hdigits, number?_toDigits false _ hrest, hvalue]

theorem isSpace_of_isDigit {c : Char} (hc : c.isDigit) : isSpace c = false := by
  have hblank : c ≠ ' ' := ne_of_isDigit hc rfl
  have hline : c ≠ '\n' := ne_of_isDigit hc rfl
  have htab : c ≠ '\t' := ne_of_isDigit hc rfl
  have hreturn : c ≠ '\r' := ne_of_isDigit hc rfl
  simp [isSpace, hblank, hline, htab, hreturn]

/-- The text of a value starts neither with a blank nor with the end of an array. -/
theorem Plain.chars_head {room : Nat} {j : Json} (h : Plain room j) :
    ∃ c l, j.chars = c :: l ∧ isSpace c = false ∧ c ≠ ']' := by
  cases h with
  | null => exact ⟨_, _, rfl, rfl, by decide⟩
  | bool b => cases b <;> exact ⟨_, _, rfl, rfl, by decide⟩
  | str s => exact ⟨_, _, rfl, rfl, by decide⟩
  | arr h => exact ⟨_, _, rfl, rfl, by decide⟩
  | obj hnames h => exact ⟨_, _, rfl, rfl, by decide⟩
  | @int _ n hlow hhigh =>
    rw [chars_int]
    split
    · exact ⟨_, _, rfl, rfl, by decide⟩
    · obtain ⟨c, l, hdigits⟩ :=
        List.exists_cons_of_ne_nil (Nat.toDigits_ne_nil (n := n.natAbs) (b := 10))
      have hc : c.isDigit := isDigit_toDigits n.natAbs c (by simp [hdigits])
      exact ⟨c, l, hdigits, isSpace_of_isDigit hc, ne_of_isDigit hc rfl⟩

theorem Plain.skipSpace {room : Nat} {j : Json} (h : Plain room j) (l : List Char) :
    skipSpace (j.chars ++ l) = j.chars ++ l := by
  obtain ⟨c, k, hchars, hc, -⟩ := h.chars_head
  rw [hchars, List.cons_append, Json.skipSpace, List.dropWhile_cons_of_neg (by simp [hc])]

theorem Plain.itemChars_head {room : Nat} {j : Json} (h : Plain room j) (items : List Json) :
    ∃ c l, itemChars (j :: items) = c :: l ∧ isSpace c = false ∧ c ≠ ']' := by
  obtain ⟨c, l, hchars, hc⟩ := h.chars_head
  cases items with
  | nil => exact ⟨c, l, hchars, hc⟩
  | cons k items =>
    refine ⟨c, l ++ [','] ++ itemChars (k :: items), ?_, hc⟩
    simp only [itemChars, hchars, List.cons_append]

theorem Plain.skipSpace_itemChars {room : Nat} {j : Json} (h : Plain room j) (items : List Json)
    (l : List Char) : Json.skipSpace (itemChars (j :: items) ++ l) = itemChars (j :: items) ++ l := by
  obtain ⟨c, k, hhead, hc, -⟩ := h.itemChars_head items
  rw [hhead, List.cons_append, Json.skipSpace, List.dropWhile_cons_of_neg (by simp [hc])]

/-- Items that read back, with commas between them, are read up to the end of their array. -/
theorem items?_itemChars {room depth fuel : Nat} {j : Json} {items : List Json} (rest : List Char)
    (hplain : ∀ k ∈ j :: items, Plain room k) (hread : ∀ k ∈ j :: items, ReadBack depth k)
    (hfuel : 3 * (itemChars (j :: items)).length + 1 ≤ fuel) :
    items? fuel depth (itemChars (j :: items) ++ ']' :: rest) = some (j :: items, rest) := by
  induction items generalizing j fuel with
  | nil =>
    obtain ⟨fuel, rfl⟩ := Nat.exists_eq_add_one_of_ne_zero (by omega : fuel ≠ 0)
    have hj := hread j (List.mem_cons_self ..) fuel (']' :: rest) (by simpa [itemChars] using hfuel)
      (by simp [Closes])
    simp only [itemChars, items?, hj]
    rfl
  | cons k items ih =>
    obtain ⟨fuel, rfl⟩ := Nat.exists_eq_add_one_of_ne_zero (by omega : fuel ≠ 0)
    rw [List.forall_mem_cons] at hplain hread
    have htext : itemChars (j :: k :: items) ++ ']' :: rest =
        j.chars ++ ',' :: (itemChars (k :: items) ++ ']' :: rest) := by
      simp only [itemChars, List.append_assoc, List.cons_append, List.nil_append]
    have hlength : (itemChars (j :: k :: items)).length =
        j.chars.length + 1 + (itemChars (k :: items)).length := by
      simp only [itemChars, List.length_append, List.length_singleton]
    have hj := hread.1 fuel (',' :: (itemChars (k :: items) ++ ']' :: rest)) (by omega)
      (by simp [Closes])
    have hrest : items? fuel depth (itemChars (k :: items) ++ ']' :: rest) = some (k :: items, rest) :=
      ih hplain.2 hread.2 (by omega)
    have hskip := (hplain.2 k (List.mem_cons_self ..)).skipSpace_itemChars items (']' :: rest)
    have hcomma : ∀ l, skipSpace (',' :: l) = ',' :: l := fun l => rfl
    simp only [htext, items?, hj, hcomma, hskip, hrest, Option.map_some]

theorem firstItem?_itemChars {room depth fuel : Nat} {items : List Json} (rest : List Char)
    (hplain : ∀ k ∈ items, Plain room k) (hread : ∀ k ∈ items, ReadBack depth k)
    (hfuel : 3 * (itemChars items).length + 2 ≤ fuel) :
    firstItem? fuel depth (skipSpace (itemChars items ++ ']' :: rest)) = some (items, rest) := by
  obtain ⟨fuel, rfl⟩ := Nat.exists_eq_add_one_of_ne_zero (by omega : fuel ≠ 0)
  cases items with
  | nil => simp [itemChars, skipSpace, isSpace, firstItem?]
  | cons j items =>
    have hj := hplain j (List.mem_cons_self ..)
    obtain ⟨c, l, hhead, -, hc⟩ := hj.itemChars_head items
    have hitems := items?_itemChars rest hplain hread (by omega : _ ≤ fuel)
    rw [hj.skipSpace_itemChars]
    rw [hhead, List.cons_append] at hitems ⊢
    unfold firstItem?
    split
    · next h => exact absurd (List.cons.inj h).1 hc
    · exact hitems

/-! ## Objects -/

theorem memberChars_head (m : String × Json) (ms : List (String × Json)) :
    ∃ l, memberChars (m :: ms) = '"' :: l := by
  obtain ⟨name, j⟩ := m
  cases ms with
  | nil => exact ⟨_, rfl⟩
  | cons n ms => exact ⟨_, rfl⟩

theorem skipSpace_memberChars (m : String × Json) (ms : List (String × Json)) (l : List Char) :
    skipSpace (memberChars (m :: ms) ++ l) = memberChars (m :: ms) ++ l := by
  obtain ⟨k, hhead⟩ := memberChars_head m ms
  rw [hhead]
  rfl

/-- Members whose values read back are read up to the end of their object. -/
theorem members_memberChars {room depth fuel : Nat} {m : String × Json}
    {ms : List (String × Json)} (rest : List Char) (hplain : ∀ x ∈ m :: ms, Plain room x.2)
    (hread : ∀ x ∈ m :: ms, ReadBack depth x.2)
    (hfuel : 3 * (memberChars (m :: ms)).length + 1 ≤ fuel) :
    members fuel depth (memberChars (m :: ms) ++ '\x7d' :: rest) =
      ((m :: ms).map fun x => (some x.1, x.2), some rest) := by
  have hcolon : ∀ l, skipSpace (':' :: l) = ':' :: l := fun l => rfl
  induction ms generalizing m fuel with
  | nil =>
    obtain ⟨name, j⟩ := m
    obtain ⟨fuel, rfl⟩ := Nat.exists_eq_add_one_of_ne_zero (by omega : fuel ≠ 0)
    rw [List.forall_mem_singleton] at hplain hread
    have htext : memberChars [(name, j)] ++ '\x7d' :: rest =
        '"' :: (name.toList.flatMap escapeChar ++ '"' :: ':' :: (j.chars ++ '\x7d' :: rest)) := by
      simp only [memberChars, quote, List.append_assoc, List.cons_append, List.nil_append]
    have hlength : j.chars.length ≤ (memberChars [(name, j)]).length := by
      simp only [memberChars, List.length_append]
      omega
    have hj : value? fuel depth (j.chars ++ '\x7d' :: rest) = some (j, '\x7d' :: rest) :=
      hread fuel _ (Nat.le_trans (Nat.mul_le_mul_left 3 hlength) (by omega)) (by simp [Closes])
    have hbrace : skipSpace ('\x7d' :: rest) = '\x7d' :: rest := rfl
    simp only [htext, members, quotedText?_quote, hcolon, hplain.skipSpace, hj, hbrace, List.map_cons,
      List.map_nil]
  | cons n ms ih =>
    obtain ⟨name, j⟩ := m
    obtain ⟨fuel, rfl⟩ := Nat.exists_eq_add_one_of_ne_zero (by omega : fuel ≠ 0)
    rw [List.forall_mem_cons] at hplain hread
    have htext : memberChars ((name, j) :: n :: ms) ++ '\x7d' :: rest =
        '"' :: (name.toList.flatMap escapeChar ++
          '"' :: ':' :: (j.chars ++ ',' :: (memberChars (n :: ms) ++ '\x7d' :: rest))) := by
      simp only [memberChars, quote, List.append_assoc, List.cons_append, List.nil_append]
    have hlength : j.chars.length + (memberChars (n :: ms)).length + 1 ≤
        (memberChars ((name, j) :: n :: ms)).length := by
      simp only [memberChars, List.length_append, List.length_singleton]
      omega
    have hvalue : 3 * j.chars.length ≤ fuel := by omega
    have hj := hread.1 fuel (',' :: (memberChars (n :: ms) ++ '\x7d' :: rest)) hvalue
      (by simp [Closes])
    have hrest : members fuel depth (memberChars (n :: ms) ++ '\x7d' :: rest) =
        ((n :: ms).map fun x => (some x.1, x.2), some rest) := ih hplain.2 hread.2 (by omega)
    have hcomma : ∀ l, skipSpace (',' :: l) = ',' :: l := fun l => rfl
    have hskip := skipSpace_memberChars n ms ('\x7d' :: rest)
    simp only [htext, members, quotedText?_quote, hcolon, hplain.1.skipSpace, hj, hcomma, hskip, hrest,
      List.map_cons]

theorem firstMember_memberChars {room depth fuel : Nat} {ms : List (String × Json)}
    (rest : List Char) (hplain : ∀ x ∈ ms, Plain room x.2) (hread : ∀ x ∈ ms, ReadBack depth x.2)
    (hfuel : 3 * (memberChars ms).length + 2 ≤ fuel) :
    firstMember fuel depth (skipSpace (memberChars ms ++ '\x7d' :: rest)) =
      (ms.map fun x => (some x.1, x.2), some rest) := by
  obtain ⟨fuel, rfl⟩ := Nat.exists_eq_add_one_of_ne_zero (by omega : fuel ≠ 0)
  cases ms with
  | nil => simp [memberChars, skipSpace, isSpace, firstMember]
  | cons m ms =>
    obtain ⟨l, hhead⟩ := memberChars_head m ms
    have hmembers := members_memberChars rest hplain hread (by omega : _ ≤ fuel)
    rw [skipSpace_memberChars]
    rw [hhead, List.cons_append] at hmembers ⊢
    unfold firstMember
    split
    · next h => simp at h
    · exact hmembers

/-! ## Texts -/

theorem readBack_null (depth : Nat) : ReadBack depth .null := by
  intro fuel rest hfuel _
  obtain ⟨fuel, rfl⟩ := Nat.exists_eq_add_one_of_ne_zero (by simp [chars] at hfuel; omega : fuel ≠ 0)
  simp [chars, value?, word?]

theorem readBack_bool (depth : Nat) (b : Bool) : ReadBack depth (.bool b) := by
  intro fuel rest hfuel _
  cases b <;>
    obtain ⟨fuel, rfl⟩ :=
      Nat.exists_eq_add_one_of_ne_zero (by simp [chars] at hfuel; omega : fuel ≠ 0) <;>
    simp [chars, value?, word?]

theorem ofMembers_some (ms : List (String × Json)) :
    ofMembers (ms.map fun x => (some x.1, x.2)) = .obj ms := by
  have hnames : (ms.map fun x => (some x.1, x.2)).mapM (fun m => m.1.map (·, m.2)) =
      some (ms.map id) := by
    rw [List.mapM_map]
    exact mapM_eq_some_map fun m _ => rfl
  rw [ofMembers, hnames, List.map_id]

/-- A plain value is read back from its text, as long as it does not nest deeper than can be. -/
theorem Plain.readBack {room : Nat} {j : Json} (h : Plain room j) {depth : Nat}
    (hdepth : depth + room ≤ deepest) : ReadBack depth j := by
  induction h generalizing depth with
  | null => exact readBack_null depth
  | bool b => exact readBack_bool depth b
  | int hlow hhigh => exact readBack_int depth hlow hhigh
  | str s => exact readBack_str depth s
  | arr h ih =>
    intro fuel rest hfuel _
    rw [chars, List.length_append, List.length_append, List.length_singleton,
      List.length_singleton] at hfuel
    obtain ⟨fuel, rfl⟩ := Nat.exists_eq_add_one_of_ne_zero (by omega : fuel ≠ 0)
    have hitems := firstItem?_itemChars rest h (fun j hj => ih j hj (by omega : depth + 1 + _ ≤ _))
      (by omega : _ ≤ fuel)
    simp only [chars, List.append_assoc, List.cons_append, List.nil_append, value?, Char.reduceEq,
      ↓reduceIte, hitems, Option.map_some, nested, if_pos (by omega : depth < deepest)]
  | obj hnames h ih =>
    intro fuel rest hfuel _
    rw [chars, List.length_append, List.length_append, List.length_singleton,
      List.length_singleton] at hfuel
    obtain ⟨fuel, rfl⟩ := Nat.exists_eq_add_one_of_ne_zero (by omega : fuel ≠ 0)
    have hmembers := firstMember_memberChars rest h (fun m hm => ih m hm (by omega : depth + 1 + _ ≤ _))
      (by omega : _ ≤ fuel)
    simp only [chars, List.append_assoc, List.cons_append, List.nil_append, value?, Char.reduceEq,
      ↓reduceIte, hmembers, ofMembers_some, nested, if_pos (by omega : depth < deepest)]

/-- A plain value is what its text holds, and nothing else. -/
theorem Plain.ofText?_text {room : Nat} {j : Json} (h : Plain room j) (hroom : room ≤ deepest) :
    ofText? j.text = some j := by
  have hread := h.readBack (by omega : 0 + room ≤ deepest) (3 * j.chars.length + 3) [] (by omega)
    (by simp [Closes])
  have hskip := h.skipSpace []
  rw [List.append_nil] at hread hskip
  have hfirst : first? j.text = some (j, []) := by
    simp only [first?, text, String.toList_ofList, hskip, hread]
  simp only [ofText?, hfirst]
  rfl

/-- The text of an object starts with its brace. -/
theorem skipSpace_obj (ms : List (String × Json)) :
    skipSpace (Json.obj ms).text.toList = '\x7b' :: (memberChars ms ++ ['\x7d']) := by
  rw [text, String.toList_ofList, chars]
  rfl

/-- The members of an object are all there for one who reads them before its end. -/
theorem leadingMembers_text {room : Nat} {ms : List (String × Json)} (h : ∀ m ∈ ms, Plain room m.2)
    (hroom : room < deepest) :
    leadingMembers (Json.obj ms).text = (ms.map fun m => (some m.1, m.2), some []) := by
  have hread : ∀ m ∈ ms, ReadBack 1 m.2 := fun m hm => (h m hm).readBack (by omega : 1 + room ≤ deepest)
  have hmembers := firstMember_memberChars [] h hread
    (by simp only [List.length_append, List.length_singleton]; omega :
      3 * (memberChars ms).length + 2 ≤ 3 * (memberChars ms ++ ['\x7d']).length + 3)
  rw [leadingMembers, skipSpace_obj]
  exact hmembers

/-! ## Values that are kept -/

theorem allReadable_eq (items : List Json) : allReadable items = items.all readable := by
  induction items with
  | nil => rfl
  | cons j items ih => rw [allReadable, ih, List.all_cons]

theorem membersReadable_eq (ms : List (String × Json)) :
    membersReadable ms = ms.all fun m => m.2.readable := by
  induction ms with
  | nil => rfl
  | cons m ms ih => rw [membersReadable, ih, List.all_cons]

theorem sortedItems_eq (items : List Json) : sortedItems items = items.map sorted := by
  induction items with
  | nil => rfl
  | cons j items ih => rw [sortedItems, ih, List.map_cons]

theorem sortedMembers_eq (ms : List (String × Json)) :
    sortedMembers ms = ms.map fun m => (m.1, m.2.sorted) := by
  induction ms with
  | nil => rfl
  | cons m ms ih => rw [sortedMembers, ih, List.map_cons]

/-- Every part of a plain value can be read. -/
theorem Plain.readable {room : Nat} {j : Json} (h : Plain room j) : j.readable := by
  induction h with
  | null | bool | int | str => rfl
  | arr h ih => rwa [Json.readable, allReadable_eq, List.all_eq_true]
  | obj hnames h ih => rwa [Json.readable, membersReadable_eq, List.all_eq_true]

theorem sortMembers_of_ascending {ms : List (String × Json)} (h : Entries.Ascending ms) :
    sortMembers ms = ms := congrArg KeyedMap.toList (KeyedMap.ofList_toList ⟨ms, h⟩)

/-- A plain value has its members in order. -/
theorem Plain.sorted {room : Nat} {j : Json} (h : Plain room j) : j.sorted = j := by
  induction h with
  | null | bool | int | str => rfl
  | @arr _ items h ih =>
    have hitems : items.map Json.sorted = items.map id := List.map_congr_left ih
    rw [Json.sorted, sortedItems_eq, hitems, List.map_id]
  | @obj _ members hnames h ih =>
    have hmembers : members.map (fun m => (m.1, m.2.sorted)) = members.map id :=
      List.map_congr_left fun m hm => Prod.ext rfl (ih m hm)
    rw [List.map_id] at hmembers
    rw [Json.sorted, sortedMembers_eq, hmembers, sortMembers_of_ascending hnames]

end HuntBoard.Json
