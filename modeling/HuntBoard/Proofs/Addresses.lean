-- An address of the web, once it was read, is written in a way that is read as the same address.
import HuntBoard.Proofs.Authorities
import HuntBoard.Proofs.Paths

namespace HuntBoard

namespace Url

open Host (isBare)

/-- An address over HTTP as it stands when it was read. -/
structure Settled (u : Url) : Prop where
  scheme : u.scheme = .http ∨ u.scheme = .https
  authority : ∃ a, u.authority = some a ∧ a.Settled u.scheme
  path : ∃ l, u.path = .segments l ∧ l ≠ [] ∧ ∀ s ∈ l, IsSegment s
  query : ∀ q, u.query = some q → ∀ c ∈ q.toList, keepsInSpecialQuery c
  fragment : ∀ f, u.fragment = some f → ∀ c ∈ f.toList, keepsInFragment c

theorem isSpecial_of_web {scheme : Scheme} (h : scheme = .http ∨ scheme = .https) : scheme.isSpecial := by
  rcases h with rfl | rfl <;> rfl

/-! ## What is read -/

theorem hostPath_of_special {scheme : Scheme} (h : scheme.isSpecial) (l : List Char) :
    hostPath scheme l = .segments (segments true l) := by
  rw [hostPath, if_neg (by simp [h]), h]

theorem settled_of_afterSlashes? {scheme : Scheme} {l : List Char} {u : Url}
    (hscheme : scheme = .http ∨ scheme = .https) (h : afterSlashes? scheme l = some u) : u.Settled := by
  unfold afterSlashes? at h
  dsimp only at h
  obtain ⟨a, ha, h⟩ := Text.of_bind_eq_some h
  obtain rfl := Option.some.inj h
  have hspecial := isSpecial_of_web hscheme
  refine ⟨hscheme, ⟨a, rfl, settled_of_authority? hspecial ha⟩, ?_, ?_, ?_⟩
  · exact ⟨_, hostPath_of_special hspecial _, segments_ne_nil _, isSegment_segments _⟩
  · intro q hq
    unfold withTail query? at hq
    dsimp only at hq
    split at hq
    · obtain rfl := Option.some.inj hq
      rw [if_pos hspecial, encoded, String.toList_ofList]
      exact keeps_percentEncode keepsCodes_specialQuery _
    · cases hq
  · intro f hf
    unfold withTail fragment? at hf
    dsimp only at hf
    split at hf
    · obtain rfl := Option.some.inj hf
      rw [encoded, String.toList_ofList]
      exact keeps_percentEncode keepsCodes_fragment _
    · cases hf

theorem scheme_of_afterSlashes? {scheme : Scheme} {l : List Char} {u : Url}
    (h : afterSlashes? scheme l = some u) : u.scheme = scheme := by
  unfold afterSlashes? at h
  dsimp only at h
  obtain ⟨a, -, h⟩ := Text.of_bind_eq_some h
  obtain rfl := Option.some.inj h
  rfl

theorem scheme_of_file? {l : List Char} {u : Url} (h : file? l = some u) : u.scheme = .file := by
  unfold file? at h
  dsimp only at h
  split at h
  · split at h
    · obtain ⟨host, -, h⟩ := Text.of_bind_eq_some h
      obtain rfl := Option.some.inj h
      rfl
    · obtain rfl := Option.some.inj h
      rfl
  · obtain rfl := Option.some.inj h
    rfl

theorem scheme_of_plain? {scheme : Scheme} {l : List Char} {u : Url} (h : plain? scheme l = some u) :
    u.scheme = scheme := by
  unfold plain? at h
  split at h
  · exact scheme_of_afterSlashes? h
  · obtain rfl := Option.some.inj h
    rfl
  · obtain rfl := Option.some.inj h
    rfl

/-- What is read as an address over HTTP is settled. -/
theorem settled_of_ofChars? {l : List Char} {u : Url} (h : ofChars? l = some u)
    (hscheme : u.scheme = .http ∨ u.scheme = .https) : u.Settled := by
  unfold ofChars? at h
  obtain ⟨⟨scheme, rest⟩, -, h⟩ := Text.of_bind_eq_some h
  dsimp only at h
  split at h
  · simp [scheme_of_file? h] at hscheme
  · simp [scheme_of_plain? h] at hscheme
  · rw [scheme_of_afterSlashes? h] at hscheme
    exact settled_of_afterSlashes? hscheme h

/-! ## What is written -/

theorem cleaned_of_visible {l : List Char} (h : ∀ c ∈ l, 0x20 < c.toNat) : cleaned l = l := by
  have houter : ∀ {l : List Char}, (∀ c ∈ l, 0x20 < c.toNat) → l.dropWhile isOuterBlank = l := by
    intro l hl
    cases l with
    | nil => rfl
    | cons c l =>
      have hc := hl c List.mem_cons_self
      exact List.dropWhile_cons_of_neg (by simp [isOuterBlank, hc])
  have hskip : ∀ c ∈ l, (!isSkipped c) = true := by
    intro c hc
    have hvisible := h c hc
    have hne (d : Char) (hd : d.toNat ≤ 0x20) : c ≠ d := by
      rintro rfl
      omega
    simp [isSkipped, hne '\t' (by decide), hne '\n' (by decide), hne '\r' (by decide)]
  rw [cleaned, houter h, houter (by simpa using h), List.reverse_reverse, List.filter_eq_self.2 hskip]

theorem cutScheme?_text {scheme : Scheme} (h : scheme = .http ∨ scheme = .https) (l : List Char) :
    cutScheme? (scheme.text.toList ++ ':' :: l) = some (scheme, l) := by
  rcases h with rfl | rfl <;> rfl

/-- The text behind a path. -/
def tailChars (u : Url) : List Char := afterMark '?' u.query ++ afterMark '#' u.fragment

theorem cutAt_append {p : Char → Bool} {l rest : List Char} (hl : ∀ c ∈ l, p c = false)
    (hrest : ∀ c ∈ rest.head?, p c) : cutAt p (l ++ rest) = (l, rest) := by
  have hmem : ∀ c ∈ l, (!p c) = true := fun c hc => by simp [hl c hc]
  have hstop : ∀ c ∈ rest.head?, (!p c) = false := fun c hc => by simp [hrest c hc]
  rw [cutAt, Text.takeWhile_append_of_stop hmem hstop, Text.dropWhile_append_of_stop hmem hstop]

theorem visible_of_keepsInFragment {c : Char} (h : keepsInFragment c) : 0x20 < c.toNat := by
  simp [keepsInFragment] at h
  exact visible_of_keepsPrintable h.1 h.2.1

theorem visible_of_keepsInSpecialQuery {c : Char} (h : keepsInSpecialQuery c) : 0x20 < c.toNat ∧ c ≠ '#' := by
  simp [keepsInSpecialQuery, keepsInQuery] at h
  exact ⟨visible_of_keepsPrintable h.1.1 h.1.2.1, h.1.2.2.2.1⟩

theorem visible_of_keepsInPath {c : Char} (h : keepsInPath c) : 0x20 < c.toNat ∧ isQueryMark c = false := by
  unfold keepsInPath at h
  rw [Bool.and_eq_true] at h
  refine ⟨visible_of_keepsInFragment h.1, ?_⟩
  have hmarks := h.2
  simp at hmarks
  simp [isQueryMark, hmarks]

theorem mem_afterMark {mark c : Char} {text : Option String} (h : c ∈ afterMark mark text) :
    c = mark ∨ ∃ s, text = some s ∧ c ∈ s.toList := by
  cases text with
  | none => cases h
  | some s => exact (List.mem_cons.1 h).imp_right fun hc => ⟨s, rfl, hc⟩

theorem cutAt_tailChars {u : Url} (h : u.Settled) :
    cutAt (· = '#') u.tailChars = (afterMark '?' u.query, afterMark '#' u.fragment) := by
  refine cutAt_append (fun c hc => ?_) ?_
  · rcases mem_afterMark hc with rfl | ⟨q, hq, hc⟩
    · rfl
    · simpa using (visible_of_keepsInSpecialQuery (h.query q hq c hc)).2
  · cases u.fragment <;> simp [afterMark]

theorem query?_tailChars {u : Url} (h : u.Settled) : query? u.scheme u.tailChars = u.query := by
  rw [query?, cutAt_tailChars h]
  cases hq : u.query with
  | none => rfl
  | some q =>
    simp only [afterMark, isSpecial_of_web h.scheme, if_true, encoded]
    rw [percentEncode_of_keeps (h.query q hq), String.ofList_toList]

theorem fragment?_tailChars {u : Url} (h : u.Settled) : fragment? u.tailChars = u.fragment := by
  rw [fragment?, cutAt_tailChars h]
  cases hf : u.fragment with
  | none => rfl
  | some f =>
    simp only [afterMark, encoded]
    rw [percentEncode_of_keeps (h.fragment f hf), String.ofList_toList]

theorem mem_segmentChars {l : List String} (h : ∀ s ∈ l, IsSegment s) {c : Char} (hc : c ∈ segmentChars l) :
    0x20 < c.toNat ∧ isQueryMark c = false := by
  obtain ⟨s, hs, hc⟩ := List.mem_flatMap.1 hc
  rcases List.mem_cons.1 hc with rfl | hc
  · decide
  · exact visible_of_keepsInPath ((h s hs).keeps c hc)

theorem mem_authority {scheme : Scheme} {a : Authority} (h : a.Settled scheme) {c : Char} (hc : c ∈ a.chars) :
    0x20 < c.toNat ∧ isQueryMark c = false ∧ isSlash true c = false := by
  rcases mem_chars h c hc with hbare | hmark
  · simp [isBare] at hbare
    simp [hbare, isQueryMark, isSlash]
  · simp only [List.mem_cons, List.not_mem_nil, or_false] at hmark
    rcases hmark with rfl | rfl | rfl | rfl <;> decide

theorem mem_tailChars {u : Url} (h : u.Settled) {c : Char} (hc : c ∈ u.tailChars) : 0x20 < c.toNat := by
  rcases List.mem_append.1 hc with hc | hc
  · rcases mem_afterMark hc with rfl | ⟨q, hq, hc⟩
    · decide
    · exact (visible_of_keepsInSpecialQuery (h.query q hq c hc)).1
  · rcases mem_afterMark hc with rfl | ⟨f, hf, hc⟩
    · decide
    · exact visible_of_keepsInFragment (h.fragment f hf c hc)

/-- The parts of a settled address in its text. -/
theorem Settled.chars_eq {u : Url} {a : Authority} {l : List String} (ha : u.authority = some a)
    (hl : u.path = .segments l) :
    u.chars = u.scheme.text.toList ++ ':' :: '/' :: '/' :: (a.chars ++ segmentChars l ++ u.tailChars) := by
  simp [chars, authorityChars, pathChars, tailChars, ha, hl]

/-- Behind the slashes the parts are found as they were put there. -/
theorem afterSlashes?_chars {u : Url} {a : Authority} {l : List String} (h : u.Settled)
    (ha : u.authority = some a) (hl : u.path = .segments l) :
    afterSlashes? u.scheme (a.chars ++ segmentChars l ++ u.tailChars) = some u := by
  have hspecial := isSpecial_of_web h.scheme
  have hsettled : a.Settled u.scheme := by
    obtain ⟨a', ha', hsettled⟩ := h.authority
    obtain rfl := Option.some.inj (ha.symm.trans ha')
    exact hsettled
  obtain ⟨hne, hsegments⟩ : l ≠ [] ∧ ∀ s ∈ l, IsSegment s := by
    obtain ⟨l', hl', hsegments⟩ := h.path
    obtain rfl := UrlPath.segments.inj (hl.symm.trans hl')
    exact hsegments
  have htail : cutAt isQueryMark (a.chars ++ segmentChars l ++ u.tailChars) =
      (a.chars ++ segmentChars l, u.tailChars) := by
    refine cutAt_append (List.forall_mem_append.2 ⟨fun c hc => ?_, fun c hc => ?_⟩) ?_
    · exact (mem_authority hsettled hc).2.1
    · exact (mem_segmentChars hsegments hc).2
    · unfold tailChars
      cases u.query <;> cases u.fragment <;> simp [afterMark, isQueryMark]
  have hplace : cutAt (isSlash true) (a.chars ++ segmentChars l) = (a.chars, segmentChars l) := by
    refine cutAt_append (fun c hc => (mem_authority hsettled hc).2.2) ?_
    rw [segmentChars_eq hne]
    simp [isSlash]
  unfold afterSlashes?
  rw [htail, hspecial]
  dsimp only
  rw [hplace, Text.bind_eq_of_some (authority?_chars hspecial hsettled _), withTail,
    hostPath_of_special hspecial, segments_segmentChars hne hsegments, query?_tailChars h,
    fragment?_tailChars h, ← ha, ← hl]

/-- A settled address is read as itself. -/
theorem ofChars?_chars {u : Url} (h : u.Settled) : ofChars? u.chars = some u := by
  obtain ⟨a, ha, hsettled⟩ := h.authority
  obtain ⟨l, hl, hne, hsegments⟩ := h.path
  have hscheme : ∀ c ∈ u.scheme.text.toList, 0x20 < c.toNat := by
    rcases h.scheme with hs | hs <;> simp [hs, Scheme.text]
  have hvisible : ∀ c ∈ u.chars, 0x20 < c.toNat := by
    rw [Settled.chars_eq ha hl]
    simp only [List.forall_mem_append, List.forall_mem_cons]
    refine ⟨hscheme, by decide, by decide, by decide, ⟨fun c hc => ?_, fun c hc => ?_⟩, fun c hc => ?_⟩
    · exact (mem_authority hsettled hc).1
    · exact (mem_segmentChars hsegments hc).1
    · exact mem_tailChars h hc
  have hslashes : ('/' :: '/' :: (a.chars ++ segmentChars l ++ u.tailChars)).dropWhile (isSlash true) =
      a.chars ++ segmentChars l ++ u.tailChars := by
    obtain ⟨c, rest, hc⟩ := List.exists_cons_of_ne_nil (chars_ne_nil hsettled)
    have hfirst := (mem_authority hsettled (c := c) (by simp [hc])).2.2
    rw [List.dropWhile_cons_of_pos (by decide), List.dropWhile_cons_of_pos (by decide), hc]
    exact List.dropWhile_cons_of_neg (by simp [hfirst])
  have hread := afterSlashes?_chars h ha hl
  rw [← hslashes] at hread
  unfold ofChars?
  rw [cleaned_of_visible hvisible, Settled.chars_eq ha hl, cutScheme?_text h.scheme, Text.bind_of_some]
  rcases h.scheme with hs | hs <;> rw [hs] at hread ⊢ <;> exact hread

end Url

end HuntBoard
