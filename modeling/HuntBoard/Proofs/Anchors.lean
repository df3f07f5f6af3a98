-- The anchor of a name keeps the letters and digits of ASCII and puts one dash for all that stands
-- between two of them, in front of the first or behind the last. So it needs no escape in an
-- address, and it is its own anchor.
import HuntBoard.Board
import HuntBoard.Proofs.HostNames
import Mathlib.Data.List.Chain

namespace HuntBoard

/-! ## Texts that are plain already -/

namespace Text

theorem isUpper_iff {c : Char} : c.isUpper ↔ 65 ≤ c.toNat ∧ c.toNat ≤ 90 := by
  change decide (65 ≤ c.toNat ∧ c.toNat ≤ 90) ↔ _
  rw [decide_eq_true_iff]

theorem isLower_iff {c : Char} : c.isLower ↔ 97 ≤ c.toNat ∧ c.toNat ≤ 122 := by
  change (decide (97 ≤ c.toNat) && decide (c.toNat ≤ 122)) ↔ _
  rw [Bool.and_eq_true, decide_eq_true_iff, decide_eq_true_iff]

theorem isAlphanum_iff {c : Char} : c.isAlphanum ↔ (c.isUpper ∨ c.isLower) ∨ c.isDigit := by
  change (c.isUpper || c.isLower || c.isDigit) ↔ _
  rw [Bool.or_eq_true, Bool.or_eq_true]

theorem lt_of_isAlphanum {c : Char} (hc : c.isAlphanum) : c.toNat < 128 := by
  rw [isAlphanum_iff, isUpper_iff, isLower_iff, Char.isDigit_iff_toNat] at hc
  have hnine : '9'.toNat = 57 := rfl
  omega

/-- A letter or digit that is no capital. -/
theorem isAlphanum_of_isLowerAscii {c : Char} (h : IsLowerAscii c) (hc : c.isAlphanum) :
    c.isLower ∨ c.isDigit := by
  rcases isAlphanum_iff.1 hc with (hcapital | hsmall) | hdigit
  · exact absurd (isUpper_iff.1 hcapital) h.2
  · exact Or.inl hsmall
  · exact Or.inr hdigit

/-- The characters of ASCII behind the space are no blanks. -/
theorem isBlank_of_ascii {c : Char} (hlow : 32 < c.toNat) (hhigh : c.toNat < 128) :
    isBlank c = false := by
  simp only [isBlank, Bool.or_eq_false_iff, Bool.and_eq_false_iff, decide_eq_false_iff_not,
    beq_eq_false_iff_ne, ne_eq]
  omega

/-- What is ASCII of a text in lower case is lower-case. -/
theorem isLowerAscii_of_mem_lowerList {before l : List Char} {d : Char} (hd : d ∈ lowerList before l)
    (hascii : d.toNat < 128) : IsLowerAscii d := by
  induction l generalizing before with
  | nil => cases hd
  | cons c l ih =>
    unfold lowerList at hd
    split at hd
    · rcases List.mem_cons.1 hd with hsigma | hd
      · -- Neither form of the sigma is ASCII.
        unfold lowerSigma at hsigma
        split at hsigma
        · rw [hsigma] at hascii
          exact absurd hascii (by decide)
        · rw [hsigma] at hascii
          exact absurd hascii (by decide)
      · exact ih hd
    · rcases List.mem_append.1 hd with hd | hd
      · exact isLowerAscii_of_mem_lowerAlone hd hascii
      · exact ih hd

theorem lowerList_of_isLowerAscii {l : List Char} (h : ∀ c ∈ l, IsLowerAscii c) (before : List Char) :
    lowerList before l = l := by
  induction l generalizing before with
  | nil => rfl
  | cons c l ih =>
    rw [List.forall_mem_cons] at h
    have hc : c.toNat < 128 := h.1.1
    have hsigma : c ≠ capitalSigma := by
      intro heq
      rw [heq] at hc
      exact absurd hc (by decide)
    unfold lowerList lowerAlone
    rw [if_neg hsigma, if_pos hc, toLower_of_isLowerAscii h.1, ih h.2]
    rfl

theorem lower_of_isLowerAscii {s : String} (h : ∀ c ∈ s.toList, IsLowerAscii c) : lower s = s := by
  unfold lower
  rw [lowerList_of_isLowerAscii h, String.ofList_toList]

theorem trim_of_no_blank {s : String} (h : ∀ c ∈ s.toList, isBlank c = false) : trim s = s := by
  have hkept {l : List Char} (hl : ∀ c ∈ l, isBlank c = false) : l.dropWhile isBlank = l := by
    cases l with
    | nil => rfl
    | cons c l => exact List.dropWhile_cons_of_neg (by simp [hl c])
  unfold trim trimBlanks
  rw [hkept h, hkept fun c hc => h c (List.mem_reverse.1 hc), List.reverse_reverse,
    String.ofList_toList]

end Text

/-! ## Gaps -/

/-- A name as its anchor takes it: without the blanks at its ends and in lower case. -/
def plainName (name : String) : List Char := (Text.lower (Text.trim name)).toList

/-- What stands in front of the first letter or digit of a text, between each and the next, and
behind the last; one more than there are letters and digits. -/
def gaps (l : List Char) : List (List Char) := Text.pieces Char.isAlphanum l

/-- What an anchor has for a gap: a dash, if anything stands there. -/
def gapMark (gap : List Char) : List Char := if gap = [] then [] else ['-']

theorem gaps_of_letter {c : Char} (hc : c.isAlphanum) (l : List Char) : gaps (c :: l) = [] :: gaps l :=
  Text.pieces_of_separator hc l

theorem gaps_of_other {c : Char} (hc : c.isAlphanum = false) {l g : List Char} {gs : List (List Char)}
    (hl : gaps l = g :: gs) : gaps (c :: l) = (c :: g) :: gs := by
  have hone : ∀ x ∈ [c], x.isAlphanum = false := by simpa using hc
  exact Text.pieces_append hone hl

/-- Within a run that has its dash already, the rest of the first gap has no other. -/
theorem gaps_dashed (inRun : Bool) (l : List Char) :
    ∃ g gs, gaps l = g :: gs ∧
      gaps (dashed inRun l) = (if inRun then [] else gapMark g) :: gs.map gapMark := by
  induction l generalizing inRun with
  | nil => exact ⟨[], [], rfl, by cases inRun <;> rfl⟩
  | cons c l ih =>
    unfold dashed
    by_cases hc : c.isAlphanum
    · obtain ⟨g, gs, hl, hrest⟩ := ih false
      refine ⟨[], gaps l, gaps_of_letter hc l, ?_⟩
      rw [if_pos hc, gaps_of_letter hc, hrest, hl]
      simp [gapMark]
    · obtain ⟨g, gs, hl, hrest⟩ := ih true
      have hother : c.isAlphanum = false := by simpa using hc
      refine ⟨c :: g, gs, gaps_of_other hother hl, ?_⟩
      rw [if_neg hc]
      cases inRun with
      | true => exact hrest
      | false =>
        have hdash : gaps ('-' :: dashed true l) = ['-'] :: gs.map gapMark :=
          gaps_of_other (by decide) hrest
        simpa [gapMark] using hdash

/-! ## Letters and dashes -/

theorem mem_dashed {inRun : Bool} {l : List Char} {c : Char} (h : c ∈ dashed inRun l) :
    c = '-' ∨ c ∈ l ∧ c.isAlphanum := by
  induction l generalizing inRun with
  | nil => cases h
  | cons d l ih =>
    have hlater {run : Bool} (h : c ∈ dashed run l) : c = '-' ∨ c ∈ d :: l ∧ c.isAlphanum := by
      rcases ih h with hc | ⟨hmem, hc⟩
      · exact Or.inl hc
      · exact Or.inr ⟨List.mem_cons_of_mem d hmem, hc⟩
    unfold dashed at h
    split at h
    · next hd =>
      rcases List.mem_cons.1 h with rfl | h
      · exact Or.inr ⟨List.mem_cons_self, hd⟩
      · exact hlater h
    · split at h
      · exact hlater h
      · rcases List.mem_cons.1 h with rfl | h
        · exact Or.inl rfl
        · exact hlater h

theorem filter_dashed (inRun : Bool) (l : List Char) :
    (dashed inRun l).filter (· ≠ '-') = l.filter Char.isAlphanum := by
  induction l generalizing inRun with
  | nil => rfl
  | cons c l ih =>
    unfold dashed
    split
    · next hc =>
      have hne : c ≠ '-' := by
        rintro rfl
        exact absurd hc (by decide)
      simp [hc, hne, ← ih false]
    · next hc =>
      split
      · simp [hc, ← ih true]
      · simp [hc, ← ih true]

/-- Two dashes do not stand side by side. -/
def OneDash (l : List Char) : Prop := l.IsChain fun c d => ¬ (c = '-' ∧ d = '-')

theorem oneDash_dashed (inRun : Bool) (l : List Char) :
    OneDash (dashed inRun l) ∧ (inRun = true → (dashed inRun l).head? ≠ some '-') := by
  induction l generalizing inRun with
  | nil => exact ⟨List.isChain_nil, fun _ => by simp [dashed]⟩
  | cons c l ih =>
    unfold dashed
    split
    · next hc =>
      have hne : c ≠ '-' := by
        rintro rfl
        exact absurd hc (by decide)
      refine ⟨List.isChain_cons.2 ⟨fun d _ => ?_, (ih false).1⟩, fun _ => by simpa using hne⟩
      simp [hne]
    · split
      · next hrun =>
        subst hrun
        exact ih true
      · next hrun =>
        obtain ⟨hchain, hhead⟩ := ih true
        refine ⟨List.isChain_cons.2 ⟨fun d hd => ?_, hchain⟩, fun h => absurd h hrun⟩
        rintro ⟨-, rfl⟩
        exact hhead rfl hd

/-- Letters and single dashes stay as they are. -/
theorem dashed_of_oneDash {inRun : Bool} {l : List Char} (hl : ∀ c ∈ l, c = '-' ∨ c.isAlphanum)
    (hone : OneDash l) (hhead : inRun = true → l.head? ≠ some '-') : dashed inRun l = l := by
  induction l generalizing inRun with
  | nil => rfl
  | cons c l ih =>
    rw [List.forall_mem_cons] at hl
    obtain ⟨hnext, hrest⟩ := List.isChain_cons.1 hone
    unfold dashed
    rcases hl.1 with rfl | hc
    · have hrun : inRun ≠ true := fun h => hhead h rfl
      have hfirst : l.head? ≠ some '-' := fun h => hnext '-' h ⟨rfl, rfl⟩
      rw [if_neg (by decide), if_neg hrun, ih hl.2 hrest fun _ => hfirst]
    · rw [if_pos hc, ih hl.2 hrest fun h => absurd h Bool.false_ne_true]

/-! ## Anchors -/

theorem anchor_toList (name : String) : (anchor name).toList = dashed false (plainName name) := by
  unfold anchor plainName
  rw [String.toList_ofList]

/-- A letter of an anchor is no capital: the name was put in lower case. -/
theorem mem_anchor {name : String} {c : Char} (h : c ∈ (anchor name).toList) :
    c.isLower ∨ c.isDigit ∨ c = '-' := by
  rw [anchor_toList] at h
  rcases mem_dashed h with hdash | ⟨hmem, hc⟩
  · exact Or.inr (Or.inr hdash)
  · unfold plainName Text.lower at hmem
    rw [String.toList_ofList] at hmem
    have hlower := Text.isLowerAscii_of_mem_lowerList hmem (Text.lt_of_isAlphanum hc)
    rcases Text.isAlphanum_of_isLowerAscii hlower hc with hsmall | hdigit
    · exact Or.inl hsmall
    · exact Or.inr (Or.inl hdigit)

theorem plain_of_mem_anchor {name : String} {c : Char} (h : c ∈ (anchor name).toList) :
    Text.IsLowerAscii c ∧ Text.isBlank c = false := by
  rcases mem_anchor h with hsmall | hdigit | rfl
  · have hc := Text.isLower_iff.1 hsmall
    exact ⟨⟨by omega, by omega⟩, Text.isBlank_of_ascii (by omega) (by omega)⟩
  · have hc := Char.isDigit_iff_toNat.1 hdigit
    have hzero : '0'.toNat = 48 := rfl
    have hnine : '9'.toNat = 57 := rfl
    exact ⟨⟨by omega, by omega⟩, Text.isBlank_of_ascii (by omega) (by omega)⟩
  · decide

theorem plainName_anchor (name : String) : plainName (anchor name) = (anchor name).toList := by
  unfold plainName
  rw [Text.trim_of_no_blank fun c hc => (plain_of_mem_anchor hc).2,
    Text.lower_of_isLowerAscii fun c hc => (plain_of_mem_anchor hc).1]

theorem anchor_anchor (name : String) : anchor (anchor name) = anchor name := by
  apply String.toList_injective
  rw [anchor_toList, plainName_anchor, anchor_toList]
  refine dashed_of_oneDash (fun c hc => ?_) (oneDash_dashed false _).1 (by simp)
  exact (mem_dashed hc).imp_right And.right

/-- An anchor has nothing but small letters, digits and dashes, and no two dashes side by side.
Without its dashes it is the letters and digits of the plain name in their order, and of the gaps
around them each has a dash if and only if something else stood there in the plain name. The anchor
of an anchor is that anchor. -/
theorem an_anchor_is_the_letters_with_a_dash_for_each_gap (name : String) :
    let marks := (anchor name).toList
    (∀ c ∈ marks, c.isLower ∨ c.isDigit ∨ c = '-') ∧
    (marks.IsChain fun c d => ¬ (c = '-' ∧ d = '-')) ∧
    marks.filter (· ≠ '-') = (plainName name).filter Char.isAlphanum ∧
    gaps marks = (gaps (plainName name)).map (fun gap => if gap = [] then [] else ['-']) ∧
    anchor (anchor name) = anchor name := by
  intro marks
  have hmarks : marks = dashed false (plainName name) := anchor_toList name
  obtain ⟨g, gs, hname, hgaps⟩ := gaps_dashed false (plainName name)
  refine ⟨fun c hc => mem_anchor hc, ?_, ?_, ?_, anchor_anchor name⟩
  · rw [hmarks]
    exact (oneDash_dashed false _).1
  · rw [hmarks]
    exact filter_dashed false _
  · rw [hmarks, hgaps, hname]
    rfl

example : anchor " Café #3 -- Finale" = "caf-3-finale" := by decide

end HuntBoard
