-- Cutting a text at separators, and putting the pieces together again.

namespace HuntBoard.Text

/-- The pieces of a text between its separators; one more than there are separators. -/
def pieces (isSeparator : Char → Bool) : List Char → List (List Char)
  | [] => [[]]
  | c :: rest =>
    if isSeparator c then [] :: pieces isSeparator rest
    else
      match pieces isSeparator rest with
      | [] => [[c]]
      | p :: ps => (c :: p) :: ps

/-- Pieces with a separator between any two. -/
def joined (separator : Char) : List (List Char) → List Char
  | [] => []
  | [p] => p
  | p :: ps => p ++ separator :: joined separator ps

theorem pieces_ne_nil (isSeparator : Char → Bool) (l : List Char) : pieces isSeparator l ≠ [] := by
  cases l with
  | nil => simp [pieces]
  | cons c rest =>
    unfold pieces
    split
    · simp
    · split <;> simp

theorem pieces_of_separator {isSeparator : Char → Bool} {c : Char} (h : isSeparator c) (l : List Char) :
    pieces isSeparator (c :: l) = [] :: pieces isSeparator l := by
  rw [pieces, if_pos h]

/-- A piece goes on up to the first separator. -/
theorem pieces_append {isSeparator : Char → Bool} {p l : List Char} {q : List Char} {qs : List (List Char)}
    (h : ∀ c ∈ p, isSeparator c = false) (hl : pieces isSeparator l = q :: qs) :
    pieces isSeparator (p ++ l) = (p ++ q) :: qs := by
  induction p with
  | nil => exact hl
  | cons c p ih =>
    rw [List.forall_mem_cons] at h
    simp [pieces, h.1, ih h.2]

/-- Pieces without separators in them are found again when they were joined. -/
theorem pieces_joined {isSeparator : Char → Bool} {separator : Char} {ps : List (List Char)}
    (hseparator : isSeparator separator) (hne : ps ≠ [])
    (h : ∀ p ∈ ps, ∀ c ∈ p, isSeparator c = false) : pieces isSeparator (joined separator ps) = ps := by
  induction ps with
  | nil => exact absurd rfl hne
  | cons p ps ih =>
    rw [List.forall_mem_cons] at h
    cases ps with
    | nil => simpa [joined] using pieces_append h.1 (show pieces isSeparator [] = [[]] from rfl)
    | cons q qs =>
      rw [joined, pieces_append h.1 (pieces_of_separator hseparator _), ih (by simp) h.2, List.append_nil]
      simp

/-- A piece has nothing that the text has not, and no separator. -/
theorem mem_of_mem_pieces {isSeparator : Char → Bool} {l p : List Char} (hp : p ∈ pieces isSeparator l) :
    ∀ c ∈ p, c ∈ l ∧ isSeparator c = false := by
  induction l generalizing p with
  | nil =>
    obtain rfl := List.mem_singleton.1 hp
    simp
  | cons d l ih =>
    have hlater {q : List Char} (hq : q ∈ pieces isSeparator l) :
        ∀ c ∈ q, c ∈ d :: l ∧ isSeparator c = false :=
      fun c hc => (ih hq c hc).imp_left (List.mem_cons_of_mem _)
    unfold pieces at hp
    split at hp
    · rcases List.mem_cons.1 hp with rfl | hp
      · simp
      · exact hlater hp
    · next hd =>
      split at hp
      · next hnil => exact absurd hnil (pieces_ne_nil _ _)
      · next q qs hq =>
        rcases List.mem_cons.1 hp with rfl | hp
        · exact List.forall_mem_cons.2 ⟨⟨List.mem_cons_self, by simpa using hd⟩, hlater (by simp [hq])⟩
        · exact hlater (by simp [hq, hp])

theorem mem_joined {separator c : Char} {ps : List (List Char)} (h : c ∈ joined separator ps) :
    c = separator ∨ ∃ p ∈ ps, c ∈ p := by
  induction ps with
  | nil => cases h
  | cons p ps ih =>
    cases ps with
    | nil => exact Or.inr ⟨p, by simp, h⟩
    | cons q qs =>
      rw [joined, List.mem_append, List.mem_cons] at h
      · rcases h with h | rfl | h
        · exact Or.inr ⟨p, by simp, h⟩
        · exact Or.inl rfl
        · refine (ih h).imp_right ?_
          rintro ⟨x, hx, hc⟩
          exact ⟨x, List.mem_cons_of_mem _ hx, hc⟩
      · simp

end HuntBoard.Text
