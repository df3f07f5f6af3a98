-- The ASCII form of a name is lower-case ASCII throughout, so that it is its own ASCII form.
import HuntBoard.Url.Host

namespace HuntBoard

/-! ## Lower-case ASCII -/

/-- A character of ASCII that is no capital. -/
def Text.IsLowerAscii (c : Char) : Prop := c.toNat < 128 ∧ ¬ (65 ≤ c.toNat ∧ c.toNat ≤ 90)

instance : DecidablePred Text.IsLowerAscii := fun _ => inferInstanceAs (Decidable (_ ∧ _))

namespace Text

theorem toLower_of_isLowerAscii {c : Char} (h : IsLowerAscii c) : c.toLower = c := by
  unfold Char.toLower
  rw [dif_neg]
  intro hcapital
  exact h.2 hcapital

theorem isLowerAscii_toLower {c : Char} (h : c.toNat < 128) : IsLowerAscii c.toLower := by
  have hall : ∀ n < 128, IsLowerAscii (Char.ofNat n).toLower := by decide
  have hc := hall c.toNat h
  rwa [Char.ofNat_toNat] at hc

theorem toNat_ofNat (n : Nat) : (Char.ofNat n).toNat = n ∨ (Char.ofNat n).toNat = 0 := by
  unfold Char.ofNat
  by_cases h : n.isValidChar
  · left
    rw [dif_pos h]
    rfl
  · right
    rw [dif_neg h]
    rfl

/-- No run of characters outside of ASCII has capitals of ASCII for its lower-case forms. -/
theorem lowerRuns_away : ∀ r ∈ lowerRuns,
    r.2.1 < 128 ∨ 90 < (r.1 : Int) + r.2.2.2 ∨ (r.2.1 : Int) + r.2.2.2 < 65 := by decide +kernel

theorem lowerSimple_cases (c : Char) :
    lowerSimple c = c ∨ ∃ r ∈ lowerRuns, r.1 ≤ c.toNat ∧ c.toNat ≤ r.2.1 ∧
      lowerSimple c = Char.ofNat (c.toNat + r.2.2.2).toNat := by
  unfold lowerSimple
  split
  · next first last step away hrun =>
    have hin := List.find?_some hrun
    simp only [Bool.and_eq_true, decide_eq_true_eq] at hin
    split
    · exact Or.inr ⟨_, List.mem_of_find?_eq_some hrun, hin.1, hin.2, rfl⟩
    · exact Or.inl rfl
  · exact Or.inl rfl

theorem isLowerAscii_lowerSimple {c : Char} (hc : 128 ≤ c.toNat) (hascii : (lowerSimple c).toNat < 128) :
    IsLowerAscii (lowerSimple c) := by
  refine ⟨hascii, ?_⟩
  rcases lowerSimple_cases c with h | ⟨r, hr, hfirst, hlast, h⟩
  · rw [h]
    omega
  · have haway := lowerRuns_away r hr
    rw [h]
    rcases toNat_ofNat (c.toNat + r.2.2.2).toNat with h' | h' <;> omega

/-- What is ASCII of a lower-case form is lower-case. -/
theorem isLowerAscii_of_mem_lowerAlone {c d : Char} (hd : d ∈ lowerAlone c) (hascii : d.toNat < 128) :
    IsLowerAscii d := by
  unfold lowerAlone at hd
  split at hd
  · next hc =>
    rw [List.mem_singleton.1 hd]
    exact isLowerAscii_toLower hc
  · next hc =>
    split at hd
    · rcases List.mem_cons.1 hd with rfl | hd
      · decide
      · rw [List.mem_singleton.1 hd] at hascii
        exact absurd hascii (by decide)
    · rw [List.mem_singleton.1 hd] at hascii ⊢
      exact isLowerAscii_lowerSimple (by omega) hascii

/-! ## Punycode -/

namespace Punycode

theorem isLowerAscii_digit : ∀ n < 36, IsLowerAscii (digit n) := by decide

theorem isLowerAscii_number (bias place n : Nat) : ∀ c ∈ number bias place n, IsLowerAscii c := by
  fun_induction number bias place n with
  | case1 place n t h =>
    have ht := threshold_le place bias
    simpa using isLowerAscii_digit n (by omega)
  | case2 place n t h ih =>
    have ht := threshold_le place bias
    have hmod : (n - t) % (36 - t) < 36 - t := Nat.mod_lt _ (by omega)
    exact List.forall_mem_cons.2 ⟨isLowerAscii_digit _ (by omega), ih⟩

variable {plain point : Nat} {e : Encoder}

theorem isLowerAscii_pass (h : ∀ c ∈ e.written, IsLowerAscii c) (d : Char) :
    ∀ c ∈ (pass plain point e d).written, IsLowerAscii c := by
  unfold pass
  split
  · exact h
  · split
    · exact List.forall_mem_append.2 ⟨h, isLowerAscii_number _ _ _⟩
    · exact h

theorem isLowerAscii_foldl_pass (h : ∀ c ∈ e.written, IsLowerAscii c) (text : List Char) :
    ∀ c ∈ (text.foldl (pass plain point) e).written, IsLowerAscii c := by
  induction text generalizing e with
  | nil => exact h
  | cons d text ih => exact ih (isLowerAscii_pass h d)

theorem isLowerAscii_points (text : List Char) (h : ∀ c ∈ e.written, IsLowerAscii c) (ps : List Nat)
    (next : Nat) : ∀ c ∈ (points text plain ps next e).written, IsLowerAscii c := by
  induction ps generalizing e next with
  | nil => exact h
  | cons p ps ih =>
    unfold points
    dsimp only
    refine ih ?_ _
    intro c hc
    exact isLowerAscii_foldl_pass (by exact h) text c hc

/-- A text in Punycode is lower-case ASCII when all of it that is ASCII is lower-case. -/
theorem isLowerAscii_encode {text : List Char} (h : ∀ c ∈ text, c.toNat < 128 → IsLowerAscii c) :
    ∀ c ∈ encode text, IsLowerAscii c := by
  unfold encode
  intro c hc
  rcases List.mem_append.1 hc with hc | hc
  · rcases List.mem_append.1 hc with hc | hc
    · obtain ⟨hmem, hascii⟩ := List.mem_filter.1 hc
      exact h c hmem (by simpa using hascii)
    · split at hc
      · cases hc
      · rw [List.mem_singleton.1 hc]
        decide
  · exact isLowerAscii_points text (by simp) _ _ c hc

end Punycode

end Text

/-! ## Names -/

namespace Host

open Text (IsLowerAscii)

theorem isLowerAscii_asciiLabel {l : List Char} (h : ∀ c ∈ l, c.toNat < 128 → IsLowerAscii c) :
    ∀ c ∈ asciiLabel l, IsLowerAscii c := by
  unfold asciiLabel
  split
  · next hascii =>
    intro c hc
    have := List.all_eq_true.1 hascii c hc
    exact h c hc (by simpa [isAscii] using this)
  · refine List.forall_mem_append.2 ⟨?_, Text.Punycode.isLowerAscii_encode h⟩
    simp [IsLowerAscii]

theorem isLowerAscii_asciiDomain (l : List Char) : ∀ c ∈ asciiDomain l, IsLowerAscii c := by
  unfold asciiDomain
  split
  · next hascii =>
    intro c hc
    obtain ⟨d, hd, rfl⟩ := List.mem_map.1 hc
    have := List.all_eq_true.1 hascii d hd
    exact Text.isLowerAscii_toLower (by simpa [isAscii] using this)
  · intro c hc
    rcases Text.mem_joined hc with rfl | ⟨label, hlabel, hc⟩
    · decide
    · obtain ⟨p, hp, rfl⟩ := List.mem_map.1 hlabel
      refine isLowerAscii_asciiLabel (fun d hd hascii => ?_) c hc
      obtain ⟨x, -, hdx⟩ := List.mem_flatMap.1 (Text.mem_of_mem_pieces hp d hd).1
      exact Text.isLowerAscii_of_mem_lowerAlone hdx hascii

/-- What is lower-case ASCII is its own ASCII form. -/
theorem asciiDomain_of_isLowerAscii {l : List Char} (h : ∀ c ∈ l, IsLowerAscii c) : asciiDomain l = l := by
  have hascii : l.all isAscii := List.all_eq_true.2 fun c hc => by simpa [isAscii] using (h c hc).1
  rw [asciiDomain, if_pos hascii]
  exact (List.map_congr_left fun c hc => Text.toLower_of_isLowerAscii (h c hc)).trans (List.map_id _)

end Host

end HuntBoard
