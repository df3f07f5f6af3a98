-- Paths of addresses: what is read as a path is in a form that is read as itself again, and
-- a path may be put behind another one that has lost its last slashes.
import HuntBoard.Proofs.Percent
import HuntBoard.Server.Exchange
import Mathlib.Data.List.Basic
import Mathlib.Data.List.Induction

namespace HuntBoard

open Text (pieces joined)

namespace Url

/-! ## Segments -/

/-- A segment as it stands in an address: nothing in it is left to be encoded, it has no slash of
either kind, and it is no dot that leads elsewhere. -/
structure IsSegment (s : String) : Prop where
  keeps : ∀ c ∈ s.toList, keepsInPath c
  slashless : ∀ c ∈ s.toList, isSlash true c = false
  notHere : dots s.toList ≠ ['.']
  notUp : dots s.toList ≠ ['.', '.']

theorem isSegment_empty : IsSegment "" := by
  constructor <;> simp [dots]

theorem isSlash_upperHexDigit : ∀ d < 16, isSlash true (Text.upperHexDigit d) = false := by decide

/-- Encoding makes no slashes. -/
theorem slashless_percentEncode {l : List Char} (h : ∀ c ∈ l, isSlash true c = false) :
    ∀ c ∈ percentEncode keepsInPath l, isSlash true c = false := by
  intro c hc
  obtain ⟨d, hd, hcd⟩ := List.mem_flatMap.1 hc
  unfold percentChar at hcd
  split at hcd
  · rw [List.mem_singleton.1 hcd]
    exact h d hd
  · obtain ⟨b, -, hb⟩ := List.mem_flatMap.1 hcd
    have hlt := b.toNat_lt
    simp only [percentByte, List.mem_cons, List.not_mem_nil, or_false] at hb
    rcases hb with rfl | rfl | rfl
    · decide
    · exact isSlash_upperHexDigit _ (by omega)
    · exact isSlash_upperHexDigit _ (by omega)

theorem isSegment_encoded {l : List Char} (hslash : ∀ c ∈ l, isSlash true c = false)
    (hhere : dots l ≠ ['.']) (hup : dots l ≠ ['.', '.']) : IsSegment (encoded keepsInPath l) := by
  unfold encoded
  constructor <;> rw [String.toList_ofList]
  · exact keeps_percentEncode keepsCodes_path l
  · exact slashless_percentEncode hslash
  · rw [dots_percentEncode]
    exact fun h => hhere (eq_of_percentEncode_eq_dots (by simp) h)
  · rw [dots_percentEncode]
    exact fun h => hup (eq_of_percentEncode_eq_dots (by simp) h)

/-! ## Walking -/

/-- Wherever a walk leads, it stays among segments. -/
theorem isSegment_walk {path : List String} {ps : List (List Char)} (hpath : ∀ s ∈ path, IsSegment s)
    (hps : ∀ p ∈ ps, ∀ c ∈ p, isSlash true c = false) : ∀ s ∈ walk path ps, IsSegment s := by
  induction ps generalizing path with
  | nil => exact hpath
  | cons p ps ih =>
    rw [List.forall_mem_cons] at hps
    have hstay : ∀ s ∈ (if ps.isEmpty then [""] else [] : List String), IsSegment s := by
      split <;> simp [isSegment_empty]
    unfold walk
    dsimp only
    split
    · refine ih (fun s hs => ?_) hps.2
      rcases List.mem_append.1 hs with hs | hs
      · exact hpath s (List.dropLast_subset path hs)
      · exact hstay s hs
    · next hup =>
      split
      · exact ih (List.forall_mem_append.2 ⟨hpath, hstay⟩) hps.2
      · next hhere =>
        refine ih (List.forall_mem_append.2 ⟨hpath, ?_⟩) hps.2
        simpa using isSegment_encoded hps.1 hhere hup

theorem walk_ne_nil {path : List String} {ps : List (List Char)} (h : ps ≠ []) : walk path ps ≠ [] := by
  induction ps generalizing path with
  | nil => exact absurd rfl h
  | cons p ps ih =>
    unfold walk
    cases ps with
    | nil =>
      by_cases hup : dots p = ['.', '.']
      · simp [hup, walk]
      · by_cases hhere : dots p = ['.'] <;> simp [hup, hhere, walk]
    | cons q qs =>
      dsimp only
      split
      · exact ih (by simp)
      · split <;> exact ih (by simp)

/-- From segment to segment the walk leads straight on. -/
theorem walk_segments (path : List String) {l : List String} (h : ∀ s ∈ l, IsSegment s) :
    walk path (l.map String.toList) = path ++ l := by
  induction l generalizing path with
  | nil => simp [walk]
  | cons s l ih =>
    obtain ⟨hs, hl⟩ := List.forall_mem_cons.1 h
    rw [List.map_cons, walk, if_neg hs.notUp, if_neg hs.notHere, ih _ hl, encoded,
      percentEncode_of_keeps hs.keeps, String.ofList_toList]
    simp

/-! ## Segments in a text -/

theorem segmentChars_append (l l' : List String) :
    segmentChars (l ++ l') = segmentChars l ++ segmentChars l' := by
  simp [segmentChars]

theorem segmentChars_eq {l : List String} (h : l ≠ []) :
    segmentChars l = '/' :: joined '/' (l.map String.toList) := by
  induction l with
  | nil => exact absurd rfl h
  | cons s l ih =>
    cases l with
    | nil => simp [segmentChars, joined]
    | cons t l =>
      have hrest := ih (by simp)
      unfold segmentChars at *
      rw [List.flatMap_cons, hrest]
      simp [joined]

/-- Segments in a text are read as they are. -/
theorem segments_segmentChars {l : List String} (hne : l ≠ []) (h : ∀ s ∈ l, IsSegment s) :
    segments true (segmentChars l) = l := by
  have hpieces : pieces (isSlash true) (joined '/' (l.map String.toList)) = l.map String.toList := by
    refine Text.pieces_joined (by decide) (by simpa using hne) ?_
    simpa using fun s hs => (h s hs).slashless
  rw [segmentChars_eq hne, segments]
  change walk [] (pieces (isSlash true) (if isSlash true '/' then _ else _)) = l
  rw [if_pos (by decide), hpieces, walk_segments [] h, List.nil_append]

/-- What is read as segments is segments. -/
theorem isSegment_segments (l : List Char) : ∀ s ∈ segments true l, IsSegment s :=
  isSegment_walk (by simp) fun _ hp c hc => (Text.mem_of_mem_pieces hp c hc).2

theorem segments_ne_nil (l : List Char) : segments true l ≠ [] := walk_ne_nil (Text.pieces_ne_nil _ _)

/-! ## Last slashes -/

open Server (withoutLastSlashes)

theorem withoutLastSlashes_concat (l : List Char) :
    withoutLastSlashes (l ++ ['/']) = withoutLastSlashes l := by
  simp [withoutLastSlashes]

/-- Only the slashes behind the last character of another kind are lost. -/
theorem withoutLastSlashes_append {l : List Char} (h : l.getLast? ≠ some '/') (l' : List Char) :
    withoutLastSlashes (l ++ l') = l ++ withoutLastSlashes l' := by
  have hlast : l.reverse.dropWhile (· = '/') = l.reverse := by
    rw [← List.head?_reverse] at h
    cases hl : l.reverse with
    | nil => rfl
    | cons c rest =>
      rw [hl, List.head?_cons] at h
      exact List.dropWhile_cons_of_neg (by simpa using h)
  unfold withoutLastSlashes
  rw [List.reverse_append, List.dropWhile_append]
  split
  · next hempty =>
    rw [hlast, List.isEmpty_iff.1 hempty]
    simp
  · simp

theorem withoutLastSlashes_of_getLast? {l : List Char} (h : l.getLast? ≠ some '/') :
    withoutLastSlashes l = l := by
  have happend := withoutLastSlashes_append h []
  simpa [withoutLastSlashes] using happend

/-- Without its last slashes, a path is one of fewer segments, or it is gone. -/
theorem exists_segments_of_withoutLastSlashes {l : List String} (h : ∀ s ∈ l, IsSegment s) :
    ∃ l', (∀ s ∈ l', IsSegment s) ∧ withoutLastSlashes (segmentChars l) = segmentChars l' := by
  induction l using List.reverseRecOn with
  | nil => exact ⟨[], h, rfl⟩
  | append_singleton l s ih =>
    obtain ⟨hl, hs⟩ := List.forall_mem_append.1 h
    by_cases hempty : s = ""
    · subst hempty
      obtain ⟨l', hl', heq⟩ := ih hl
      refine ⟨l', hl', ?_⟩
      rw [segmentChars_append, ← heq]
      exact withoutLastSlashes_concat _
    · refine ⟨l ++ [s], h, withoutLastSlashes_of_getLast? fun hlast => ?_⟩
      have hne : s.toList ≠ [] := by simpa using hempty
      have hmem : '/' ∈ s.toList := by
        rw [segmentChars_append, show segmentChars [s] = ['/'] ++ s.toList by simp [segmentChars],
          List.getLast?_append_of_ne_nil _ (by simp), List.getLast?_append_of_ne_nil _ hne] at hlast
        exact List.mem_of_getLast? hlast
      have hslash := (hs s (by simp)).slashless '/' hmem
      exact absurd hslash (by decide)

end Url

end HuntBoard
