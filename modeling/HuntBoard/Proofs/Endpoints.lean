-- Where the server's writes are asked for: the path of a write is put behind the text of the base,
-- and so behind the path only of a base that ends in one.
import HuntBoard.Proofs.Addresses
import HuntBoard.Write.Request

namespace HuntBoard

open Url

/-! ## Paths of writes -/

/-- A text that stands for itself in every part of an address. -/
def IsPlain (s : String) : Prop :=
  ∀ c ∈ s.toList, keepsInPath c ∧ keepsInSpecialQuery c ∧ c ∉ ['/', '\\', '.', '%']

theorem IsPlain.isSegment {s : String} (h : IsPlain s) : IsSegment s := by
  have habsent (c : Char) (hc : c ∈ ['/', '\\', '.', '%']) : c ∉ s.toList := fun hmem => (h c hmem).2.2 hc
  have hdots : dots s.toList = s.toList := dots_of_not_mem (habsent '%' (by simp))
  have hdot : '.' ∉ s.toList := habsent '.' (by simp)
  refine ⟨fun c hc => (h c hc).1, fun c hc => ?_, fun hs => ?_, fun hs => ?_⟩
  · have hmarks := (h c hc).2.2
    simp only [List.mem_cons, not_or] at hmarks
    simp [isSlash, hmarks]
  · rw [hdots] at hs
    simp [hs] at hdot
  · rw [hdots] at hs
    simp [hs] at hdot

theorem isPlain_puzzles : IsPlain "puzzles" := by
  simp [IsPlain]
  decide

theorem isPlain_rounds : IsPlain "rounds" := by
  simp [IsPlain]
  decide

theorem isPlain_int (n : Int) : IsPlain (toString n) := by
  have hdigit : ∀ d < 10, keepsInPath d.digitChar ∧ keepsInSpecialQuery d.digitChar ∧
      d.digitChar ∉ ['/', '\\', '.', '%'] := by decide
  intro c hc
  rw [Text.toList_toString_int] at hc
  rcases List.mem_append.1 hc with hc | hc
  · split at hc
    · rw [List.mem_singleton.1 hc]
      decide
    · cases hc
  · obtain ⟨d, hd, rfl⟩ := Text.mem_toDigits (by decide) c hc
    exact hdigit d hd

namespace WriteRequest

/-- The segments of the path of a write. -/
def segments : WriteRequest → List String
  | createPuzzle _ => ["puzzles"]
  | updatePuzzle id _ | deletePuzzle id => ["puzzles", id.text]
  | createRound _ => ["rounds"]
  | updateRound id _ | deleteRound id => ["rounds", id.text]

theorem path_eq_segmentChars (request : WriteRequest) :
    request.path.toList = segmentChars request.segments := by
  cases request <;> simp [path, segments, segmentChars]

theorem segments_ne_nil (request : WriteRequest) : request.segments ≠ [] := by
  cases request <;> simp [segments]

theorem isPlain_segments (request : WriteRequest) : ∀ s ∈ request.segments, IsPlain s := by
  have hpuzzle (id : PuzzleId) : IsPlain id.text := isPlain_int _
  have hround (id : RoundId) : IsPlain id.text := isPlain_int _
  cases request <;> simp [segments, isPlain_puzzles, isPlain_rounds, hpuzzle, hround]

/-- The path of a write may stand in any part of an address. -/
theorem mem_path (request : WriteRequest) {c : Char} (hc : c ∈ request.path.toList) :
    keepsInSpecialQuery c ∧ keepsInFragment c := by
  rw [path_eq_segmentChars] at hc
  obtain ⟨s, hs, hc⟩ := List.mem_flatMap.1 hc
  rcases List.mem_cons.1 hc with rfl | hc
  · decide
  · obtain ⟨hpath, hquery, -⟩ := request.isPlain_segments s hs c hc
    unfold keepsInPath at hpath
    rw [Bool.and_eq_true] at hpath
    exact ⟨hquery, hpath.1⟩

end WriteRequest

/-! ## Behind a base -/

namespace Url

open Server (withoutLastSlashes)

theorem mem_withoutLastSlashes {l : List Char} {c : Char} (h : c ∈ withoutLastSlashes l) : c ∈ l := by
  unfold withoutLastSlashes at h
  exact List.mem_reverse.1 ((List.dropWhile_sublist _).mem (List.mem_reverse.1 h))

theorem withoutLastSlashes_mark {mark : Char} (h : mark ≠ '/') (l rest : List Char) :
    withoutLastSlashes (l ++ mark :: rest) = l ++ mark :: withoutLastSlashes rest := by
  rw [List.append_cons, withoutLastSlashes_append (by simpa using h)]
  simp

/-- The text of an address up to its query and its fragment. -/
def placeChars (u : Url) : List Char := u.scheme.text.toList ++ [':'] ++ u.authorityChars ++ u.pathChars

theorem chars_eq_placeChars (u : Url) :
    u.chars = u.placeChars ++ afterMark '?' u.query ++ afterMark '#' u.fragment := rfl

variable {u : Url} (request : WriteRequest)

/-- A path behind a base that ends in a fragment goes into the fragment. -/
theorem ofChars?_behind_fragment (h : u.Settled) {f : String} (hf : u.fragment = some f) :
    ofChars? (withoutLastSlashes u.chars ++ request.path.toList) =
      some { u with fragment := some (String.ofList (withoutLastSlashes f.toList ++ request.path.toList)) } := by
  have hsettled : Settled
      { u with fragment := some (String.ofList (withoutLastSlashes f.toList ++ request.path.toList)) } := by
    refine ⟨h.scheme, h.authority, h.path, h.query, fun g hg => ?_⟩
    obtain rfl := Option.some.inj hg
    rw [String.toList_ofList]
    refine List.forall_mem_append.2 ⟨fun c hc => ?_, fun c hc => (request.mem_path hc).2⟩
    exact h.fragment f hf c (mem_withoutLastSlashes hc)
  rw [← ofChars?_chars hsettled, chars_eq_placeChars u, hf, afterMark,
    withoutLastSlashes_mark (by decide), chars_eq_placeChars, afterMark, String.toList_ofList]
  simp [placeChars, authorityChars, pathChars]

/-- A path behind a base that ends in a query goes into the query. -/
theorem ofChars?_behind_query (h : u.Settled) {q : String} (hq : u.query = some q) (hf : u.fragment = none) :
    ofChars? (withoutLastSlashes u.chars ++ request.path.toList) =
      some { u with query := some (String.ofList (withoutLastSlashes q.toList ++ request.path.toList)) } := by
  have hsettled : Settled
      { u with query := some (String.ofList (withoutLastSlashes q.toList ++ request.path.toList)) } := by
    refine ⟨h.scheme, h.authority, h.path, fun g hg => ?_, h.fragment⟩
    obtain rfl := Option.some.inj hg
    rw [String.toList_ofList]
    refine List.forall_mem_append.2 ⟨fun c hc => ?_, fun c hc => (request.mem_path hc).1⟩
    exact h.query q hq c (mem_withoutLastSlashes hc)
  have htext : u.chars = u.placeChars ++ '?' :: q.toList := by
    simp [chars_eq_placeChars, hq, hf, afterMark]
  rw [← ofChars?_chars hsettled, htext, withoutLastSlashes_mark (by decide), chars_eq_placeChars,
    afterMark, String.toList_ofList, hf]
  simp [placeChars, authorityChars, pathChars, afterMark]

/-- A path behind a base that ends in a path goes on with that. -/
theorem ofChars?_behind_path (h : u.Settled) (hq : u.query = none) (hf : u.fragment = none) :
    ∃ l, ofChars? (withoutLastSlashes u.chars ++ request.path.toList) = some { u with path := .segments l } ∧
      segmentChars l = withoutLastSlashes u.pathChars ++ request.path.toList := by
  obtain ⟨a, ha, hauthority⟩ := h.authority
  obtain ⟨l, hl, -, hsegments⟩ := h.path
  obtain ⟨kept, hkept, htrim⟩ := exists_segments_of_withoutLastSlashes hsegments
  have hsettled : Settled { u with path := .segments (kept ++ request.segments) } := by
    refine ⟨h.scheme, h.authority, ⟨_, rfl, by simp [request.segments_ne_nil], ?_⟩, h.query, h.fragment⟩
    exact List.forall_mem_append.2 ⟨hkept, fun s hs => (request.isPlain_segments s hs).isSegment⟩
  have hbase : u.pathChars = segmentChars l := by simp [pathChars, ha, hl]
  have hgoes : segmentChars (kept ++ request.segments) =
      withoutLastSlashes u.pathChars ++ request.path.toList := by
    rw [segmentChars_append, ← htrim, ← request.path_eq_segmentChars, hbase]
  refine ⟨_, ?_, hgoes⟩
  -- The last slashes are those of the path: none stands at the end of an authority.
  have hplace : (u.scheme.text.toList ++ [':'] ++ u.authorityChars).getLast? ≠ some '/' := by
    intro hlast
    have hslashes : u.authorityChars = ['/', '/'] ++ a.chars := by simp [authorityChars, ha]
    rw [hslashes, ← List.append_assoc, List.getLast?_append_of_ne_nil _ (chars_ne_nil hauthority)] at hlast
    have hslash := (mem_authority hauthority (List.mem_of_getLast? hlast)).2.2
    exact absurd hslash (by decide)
  have htext : withoutLastSlashes u.chars =
      u.scheme.text.toList ++ [':'] ++ u.authorityChars ++ withoutLastSlashes u.pathChars := by
    rw [← withoutLastSlashes_append hplace, chars_eq_placeChars, hq, hf, placeChars]
    simp [afterMark]
  rw [← ofChars?_chars hsettled, htext, chars_eq_placeChars, placeChars,
    List.append_assoc _ _ request.path.toList, ← hgoes]
  simp [hq, hf, afterMark, authorityChars, pathChars, ha]

end Url

namespace Server

variable {s : Server} {base : String} {cookie : Option String}

theorem settled_of_at? (hs : at? base cookie = .ok s) (hweb : s.base.scheme = .http ∨ s.base.scheme = .https) :
    s.base.Settled := by
  unfold at? at hs
  split at hs
  · next u hu =>
    obtain rfl := Except.ok.inj hs
    exact settled_of_ofChars? hu hweb
  · cases hs

theorem endpoint_eq_ok {path : String} {u : Url}
    (h : ofChars? (withoutLastSlashes s.base.chars ++ path.toList) = some u) : s.endpoint path = .ok u := by
  rw [endpoint, h]

/-- There is an address for every write, at the place of the base. Behind a base without query and
fragment, the path of the write follows the path of the base, less the slashes at its end. Behind any
other base it follows the fragment, or else the query, and the path of the base stays alone. -/
theorem a_write_is_asked_for_behind_all_of_the_base (hs : at? base cookie = .ok s)
    (hweb : s.base.scheme = .http ∨ s.base.scheme = .https) (request : WriteRequest) :
    ∃ u, s.endpoint request.path = .ok u ∧
      u.scheme = s.base.scheme ∧ u.authority = s.base.authority ∧
      (s.base.query = none → s.base.fragment = none →
        u.pathChars = withoutLastSlashes s.base.pathChars ++ request.path.toList ∧
          u.query = none ∧ u.fragment = none) ∧
      (∀ q, s.base.query = some q → s.base.fragment = none → u =
        { s.base with query := some (String.ofList (withoutLastSlashes q.toList ++ request.path.toList)) }) ∧
      ∀ f, s.base.fragment = some f → u =
        { s.base with fragment := some (String.ofList (withoutLastSlashes f.toList ++ request.path.toList)) } := by
  have hsettled := settled_of_at? hs hweb
  obtain ⟨a, ha, -⟩ := hsettled.authority
  cases hf : s.base.fragment with
  | some f =>
    have hread := ofChars?_behind_fragment request hsettled hf
    refine ⟨_, endpoint_eq_ok hread, rfl, rfl, nofun, nofun, fun g hg => ?_⟩
    rw [Option.some.inj hg]
  | none =>
    cases hq : s.base.query with
    | some q =>
      have hread := ofChars?_behind_query request hsettled hq hf
      refine ⟨_, endpoint_eq_ok hread, rfl, rfl, nofun, fun p hp _ => ?_, nofun⟩
      rw [Option.some.inj hp]
    | none =>
      obtain ⟨l, hread, hpath⟩ := ofChars?_behind_path request hsettled hq hf
      refine ⟨_, endpoint_eq_ok hread, rfl, rfl, fun _ _ => ⟨?_, hq, hf⟩, nofun, nofun⟩
      rw [← hpath]
      simp [pathChars, ha]

def deleteThird : WriteRequest := .deletePuzzle ⟨-3⟩

def api : Server where
  base := { scheme := .http, authority := some { host := .name "h", port := some 8080 },
            path := .segments ["api", "", ""] }

theorem at?_api : at? "HTTP://H:8080/api//" none = .ok api := by
  have hread : ofText? "HTTP://H:8080/api//" = some api.base := by decide +kernel
  rw [at?, hread]
  rfl

theorem the_third_puzzle_is_deleted_below_the_api :
    at? "HTTP://H:8080/api//" none = .ok api ∧
      ∃ u, api.endpoint deleteThird.path = .ok u ∧ u.authority = api.base.authority ∧
        u.pathChars = "/api/puzzles/-3".toList := by
  obtain ⟨u, hu, -, hauthority, hpath, -, -⟩ :=
    a_write_is_asked_for_behind_all_of_the_base at?_api (Or.inl rfl) deleteThird
  have hplace : withoutLastSlashes api.base.pathChars ++ deleteThird.path.toList = "/api/puzzles/-3".toList := by
    decide +kernel
  exact ⟨at?_api, u, hu, hauthority, hplace ▸ (hpath rfl rfl).1⟩

def filtered : Server where
  base := { scheme := .http, authority := some { host := .name "h" }, path := .segments ["api"],
            query := some "x=1" }

theorem at?_filtered : at? "http://h/api?x=1" none = .ok filtered := by
  have hread : ofText? "http://h/api?x=1" = some filtered.base := by decide +kernel
  rw [at?, hread]
  rfl

/-- A query at the end of the base takes the path of a write in, and the path of the base stays alone. -/
theorem a_query_takes_the_path_in :
    ¬ ∀ (base : String) (cookie : Option String) (s : Server), at? base cookie = .ok s →
      s.base.scheme = .http ∨ s.base.scheme = .https → ∀ request : WriteRequest,
        ∃ u, s.endpoint request.path = .ok u ∧
          u.scheme = s.base.scheme ∧ u.authority = s.base.authority ∧
          u.pathChars = withoutLastSlashes s.base.pathChars ++ request.path.toList := by
  intro h
  obtain ⟨u, hu, -, -, hpath⟩ := h "http://h/api?x=1" none filtered at?_filtered (Or.inl rfl) deleteThird
  have hread : filtered.endpoint deleteThird.path =
      .ok { filtered.base with query := some "x=1/puzzles/-3" } := by decide +kernel
  obtain rfl := Except.ok.inj (hu.symm.trans hread)
  exact absurd hpath (by decide +kernel)

end Server

end HuntBoard
