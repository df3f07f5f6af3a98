-- Percent-encoding leaves nothing to be encoded, and changes no text in which every character
-- stands for itself. Dots that were written in percent-encoding stay what they were.
import HuntBoard.Url.Reader

namespace HuntBoard.Url

variable {keeps : Char → Bool} {l : List Char}

theorem percentEncode_cons_of_keeps {c : Char} (h : keeps c) :
    percentEncode keeps (c :: l) = c :: percentEncode keeps l := by
  simp [percentEncode, percentChar, h]

theorem percentEncode_cons_of_not_keeps {c : Char} (h : ¬ keeps c) :
    percentEncode keeps (c :: l) =
      (String.utf8EncodeChar c).flatMap percentByte ++ percentEncode keeps l := by
  simp [percentEncode, percentChar, h]

/-- A text of characters that stand for themselves stays as it is. -/
theorem percentEncode_of_keeps (h : ∀ c ∈ l, keeps c) : percentEncode keeps l = l := by
  induction l with
  | nil => rfl
  | cons c l ih =>
    rw [List.forall_mem_cons] at h
    rw [percentEncode_cons_of_keeps h.1, ih h.2]

/-- Of the characters that can be printed only the blank is not visible. -/
theorem visible_of_keepsPrintable {c : Char} (h : keepsPrintable c) (hblank : c ≠ ' ') : 0x20 < c.toNat := by
  have hne : c.toNat ≠ 0x20 := fun hc => hblank (Char.toNat_inj.1 hc)
  simp [keepsPrintable] at h
  omega

/-- The characters of codes stand for themselves. -/
def KeepsCodes (keeps : Char → Bool) : Prop := keeps '%' ∧ ∀ d < 16, keeps (Text.upperHexDigit d)

theorem keeps_percentByte (hkeeps : KeepsCodes keeps) (b : UInt8) : ∀ c ∈ percentByte b, keeps c := by
  have hb := b.toNat_lt
  have hhigh := hkeeps.2 (b.toNat / 16) (by omega)
  have hlow := hkeeps.2 (b.toNat % 16) (by omega)
  simp [percentByte, hkeeps.1, hhigh, hlow]

/-- In a text that was encoded, all characters stand for themselves. -/
theorem keeps_percentEncode (hkeeps : KeepsCodes keeps) (l : List Char) :
    ∀ c ∈ percentEncode keeps l, keeps c := by
  intro c hc
  obtain ⟨d, -, hd⟩ := List.mem_flatMap.1 hc
  unfold percentChar at hd
  split at hd
  · next h => rwa [List.mem_singleton.1 hd]
  · obtain ⟨b, -, hb⟩ := List.mem_flatMap.1 hd
    exact keeps_percentByte hkeeps b c hb

theorem keepsCodes_path : KeepsCodes keepsInPath := by unfold KeepsCodes; decide

theorem keepsCodes_userInfo : KeepsCodes keepsInUserInfo := by unfold KeepsCodes; decide

theorem keepsCodes_specialQuery : KeepsCodes keepsInSpecialQuery := by unfold KeepsCodes; decide

theorem keepsCodes_fragment : KeepsCodes keepsInFragment := by unfold KeepsCodes; decide

/-! ## Dots -/

/-- A byte of a character is the character itself, or stands for no character of its own. -/
theorem mem_utf8EncodeChar {c : Char} {b : UInt8} (h : b ∈ String.utf8EncodeChar c) :
    b.toNat = c.toNat ∨ 128 ≤ b.toNat := by
  unfold String.utf8EncodeChar at h
  dsimp only at h
  unfold Char.toNat
  split at h
  · next hplain =>
    obtain rfl := List.mem_singleton.1 h
    left
    rw [UInt8.toNat_ofNat', Nat.mod_eq_of_lt (by omega)]
  · right
    split at h
    · simp only [List.mem_cons, List.not_mem_nil, or_false] at h
      rcases h with rfl | rfl <;> simp only [UInt8.toNat_ofNat'] <;> omega
    · split at h <;> simp only [List.mem_cons, List.not_mem_nil, or_false] at h
      · rcases h with rfl | rfl | rfl <;> simp only [UInt8.toNat_ofNat'] <;> omega
      · rcases h with rfl | rfl | rfl | rfl <;> simp only [UInt8.toNat_ofNat'] <;> omega

theorem dots_cons {c : Char} (h : c ≠ '%') (l : List Char) : dots (c :: l) = c :: dots l := by
  rw [dots]
  intro e rest hc
  exact absurd hc h

/-- A text without percent signs has its dots as they are. -/
theorem dots_of_not_mem (h : '%' ∉ l) : dots l = l := by
  induction l with
  | nil => rfl
  | cons c l ih =>
    rw [List.mem_cons, not_or] at h
    rw [dots_cons (Ne.symm h.1), ih h.2]

/-- What stands behind a percent sign makes a dot of it. -/
def MakesDot (l : List Char) : Prop := ∃ e rest, l = '2' :: e :: rest ∧ (e = 'e' ∨ e = 'E')

theorem dots_percent (h : ¬ MakesDot l) : dots ('%' :: l) = '%' :: dots l := by
  by_cases hcode : ∃ e rest, l = '2' :: e :: rest
  · obtain ⟨e, rest, rfl⟩ := hcode
    rw [dots, if_neg fun he => h ⟨e, rest, rfl, he⟩, dots_cons (show '2' ≠ '%' by decide)]
  · rw [dots]
    intro e rest _ heq
    exact hcode ⟨e, rest, heq⟩

theorem upperHexDigit_cases : ∀ d < 16, Text.upperHexDigit d ≠ '%' ∧ Text.upperHexDigit d ≠ 'e' ∧
    (Text.upperHexDigit d = '2' → d = 2) ∧ (Text.upperHexDigit d = 'E' → d = 14) := by decide

/-- Only the code of a dot is one. -/
theorem dots_code {b : UInt8} (hb : b.toNat ≠ 0x2E) (l : List Char) :
    dots (percentByte b ++ l) = percentByte b ++ dots l := by
  have hlt := b.toNat_lt
  obtain ⟨hhigh, -, htwo, -⟩ := upperHexDigit_cases (b.toNat / 16) (by omega)
  obtain ⟨hlow, hsmall, -, hE⟩ := upperHexDigit_cases (b.toNat % 16) (by omega)
  change dots ('%' :: _ :: _ :: l) = '%' :: _ :: _ :: dots l
  rw [dots_percent, dots_cons hhigh, dots_cons hlow]
  rintro ⟨e, rest, heq, he⟩
  obtain ⟨hfirst, hrest⟩ := List.cons.inj heq
  obtain ⟨rfl, -⟩ := List.cons.inj hrest
  have h2 := htwo hfirst
  have h14 := hE (he.resolve_left hsmall)
  omega

theorem dots_codes {bs : List UInt8} (hbs : ∀ b ∈ bs, b.toNat ≠ 0x2E) (l : List Char) :
    dots (bs.flatMap percentByte ++ l) = bs.flatMap percentByte ++ dots l := by
  induction bs with
  | nil => rfl
  | cons b bs ih =>
    rw [List.forall_mem_cons] at hbs
    rw [List.flatMap_cons, List.append_assoc, dots_code hbs.1, ih hbs.2, List.append_assoc]

/-- What an encoded text begins with: the first character of the text, or a percent sign. -/
theorem head?_percentEncode_cons (keeps : Char → Bool) (c : Char) (l : List Char) :
    (percentEncode keeps (c :: l)).head? = some (if keeps c then c else '%') := by
  by_cases h : keeps c
  · simp [percentEncode_cons_of_keeps h, h]
  · rw [percentEncode_cons_of_not_keeps h, if_neg h]
    cases hbytes : String.utf8EncodeChar c with
    | nil => exact absurd hbytes (by simp [String.utf8EncodeChar_ne_nil])
    | cons b bs => simp [percentByte]

/-- An encoded text begins with anything but a percent sign only if the text itself does. -/
theorem of_percentEncode_eq_cons {c : Char} {rest : List Char} (hc : c ≠ '%')
    (h : percentEncode keeps l = c :: rest) : ∃ l', l = c :: l' ∧ percentEncode keeps l' = rest := by
  cases l with
  | nil => cases h
  | cons d l =>
    have hhead := head?_percentEncode_cons keeps d l
    rw [h, List.head?_cons, Option.some.injEq] at hhead
    split at hhead
    · next hkeeps =>
      subst hhead
      rw [percentEncode_cons_of_keeps hkeeps] at h
      exact ⟨l, rfl, (List.cons.inj h).2⟩
    · exact absurd hhead hc

/-- Encoding what stands behind a percent sign makes no dot of it. -/
theorem MakesDot.of_percentEncode (h : MakesDot (percentEncode keeps l)) : MakesDot l := by
  obtain ⟨e, rest, heq, he⟩ := h
  have hplain : e ≠ '%' := by rcases he with rfl | rfl <;> decide
  obtain ⟨l', rfl, hrest⟩ := of_percentEncode_eq_cons (by decide) heq
  obtain ⟨l'', rfl, -⟩ := of_percentEncode_eq_cons hplain hrest
  exact ⟨e, l'', rfl, he⟩

/-- Codes are no dots, so that encoding leaves the dots of a text as they are. -/
theorem dots_percentEncode (l : List Char) :
    dots (percentEncode keepsInPath l) = percentEncode keepsInPath (dots l) := by
  have hpercent (l) : percentEncode keepsInPath ('%' :: l) = '%' :: percentEncode keepsInPath l :=
    percentEncode_cons_of_keeps (by decide)
  have htwo (l) : percentEncode keepsInPath ('2' :: l) = '2' :: percentEncode keepsInPath l :=
    percentEncode_cons_of_keeps (by decide)
  fun_induction dots l with
  | case1 e rest he ih =>
    have hkeeps : keepsInPath e := by rcases he with rfl | rfl <;> decide
    rw [hpercent, htwo, percentEncode_cons_of_keeps hkeeps, percentEncode_cons_of_keeps (by decide), dots,
      if_pos he, ih]
  | case2 e rest he ih =>
    have hdot : ¬ MakesDot (percentEncode keepsInPath ('2' :: e :: rest)) := by
      intro hdot
      obtain ⟨e', rest', heq, he'⟩ := hdot.of_percentEncode
      obtain ⟨-, hrest⟩ := List.cons.inj heq
      obtain ⟨rfl, -⟩ := List.cons.inj hrest
      exact he he'
    rw [hpercent, dots_percent hdot, htwo, dots_cons (show '2' ≠ '%' by decide), ih, hpercent, htwo]
  | case3 c rest hc ih =>
    by_cases hkeeps : keepsInPath c
    · rw [percentEncode_cons_of_keeps hkeeps, percentEncode_cons_of_keeps hkeeps, ← ih]
      by_cases hpercent : c = '%'
      · subst hpercent
        refine dots_percent fun hdot => ?_
        obtain ⟨e, rest', heq, -⟩ := hdot.of_percentEncode
        exact hc e rest' rfl heq
      · exact dots_cons hpercent _
    · rw [percentEncode_cons_of_not_keeps hkeeps, percentEncode_cons_of_not_keeps hkeeps, ← ih]
      refine dots_codes (fun b hb hdot => ?_) _
      rcases mem_utf8EncodeChar hb with hplain | hhigh
      · refine hkeeps ?_
        rw [← Char.ofNat_toNat c, ← hplain, hdot]
        decide
      · omega
  | case4 => rfl

/-- Only dots are encoded as dots. -/
theorem eq_of_percentEncode_eq_dots {l ds : List Char} (hds : ∀ c ∈ ds, c = '.')
    (h : percentEncode keepsInPath l = ds) : l = ds := by
  induction ds generalizing l with
  | nil =>
    cases l with
    | nil => rfl
    | cons c l =>
      have hhead := head?_percentEncode_cons keepsInPath c l
      simp [h] at hhead
  | cons d ds ih =>
    obtain ⟨rfl, hdots⟩ := List.forall_mem_cons.1 hds
    obtain ⟨l', rfl, hrest⟩ := of_percentEncode_eq_cons (by decide) h
    rw [ih hdots hrest]

end HuntBoard.Url
