-- User, host and port of an address, as they are written, are read as themselves.
import HuntBoard.Proofs.Hosts
import HuntBoard.Proofs.Percent

namespace HuntBoard

open Url

namespace Authority

/-- An authority as it stands in an address of a special scheme. -/
structure Settled (scheme : Scheme) (a : Authority) : Prop where
  username : ∀ c ∈ a.username.toList, keepsInUserInfo c
  password : ∀ c ∈ a.password.toList, keepsInUserInfo c
  host : a.host.Settled
  port : ∀ n, a.port = some n → n ≤ 65535 ∧ scheme.usualPort? ≠ some n

end Authority

namespace Url

open Host (isBare)

/-! ## The user -/

theorem isBare_of_keepsInUserInfo {c : Char} (h : keepsInUserInfo c) : isBare c := by
  simp [keepsInUserInfo, keepsInPath, keepsInFragment] at h
  have hvisible : 0x20 < c.toNat := visible_of_keepsPrintable h.1.1.1 h.1.1.2.1
  simp [isBare, h, hvisible]

theorem cutUser_of_none {l : List Char} (h : '@' ∉ l) : cutUser l = (none, l) := by
  have hdrop : l.reverse.dropWhile (fun c => !decide (c = '@')) = [] := by
    rw [List.dropWhile_eq_nil_iff]
    intro c hc
    have hne : c ≠ '@' := by
      rintro rfl
      exact h (List.mem_reverse.1 hc)
    simpa using hne
  unfold cutUser cutAt
  rw [hdrop]

/-- The user ends at the last sign there is. -/
theorem cutUser_append {l : List Char} (user : List Char) (h : '@' ∉ l) :
    cutUser (user ++ '@' :: l) = (some user, l) := by
  have hmem : ∀ c ∈ l.reverse, (!decide (c = '@')) = true := by
    intro c hc
    have hne : c ≠ '@' := by
      rintro rfl
      exact h (List.mem_reverse.1 hc)
    simpa using hne
  have hreverse : (user ++ '@' :: l).reverse = l.reverse ++ '@' :: user.reverse := by simp
  unfold cutUser cutAt
  rw [hreverse, Text.takeWhile_append_of_stop hmem (by simp), Text.dropWhile_append_of_stop hmem (by simp)]
  simp

/-- User and password are read as they are. -/
theorem userInfo_append {user password : String} (huser : ∀ c ∈ user.toList, keepsInUserInfo c)
    (hpassword : ∀ c ∈ password.toList, keepsInUserInfo c) :
    userInfo (user.toList ++ if password.isEmpty then [] else ':' :: password.toList) = (user, password) := by
  have hmem : ∀ c ∈ user.toList, (!decide (c = ':')) = true := by
    intro c hc
    simpa using Host.ne_colon_of_isBare (isBare_of_keepsInUserInfo (huser c hc))
  have hrest : ∀ c ∈ (if password.isEmpty then [] else ':' :: password.toList).head?,
      (!decide (c = ':')) = false := by
    split <;> simp
  have hdrop : ((if password.isEmpty then [] else ':' :: password.toList) : List Char).drop 1 =
      password.toList := by
    split
    · next h => simp [String.isEmpty_iff.1 h]
    · rfl
  unfold userInfo cutAt
  rw [Text.takeWhile_append_of_stop hmem hrest, Text.dropWhile_append_of_stop hmem hrest]
  simp only [hdrop]
  rw [encoded, encoded, percentEncode_of_keeps huser, percentEncode_of_keeps hpassword,
    String.ofList_toList, String.ofList_toList]

/-! ## The host and the port -/

/-- The host goes on through characters that are no marks, and within brackets through colons. -/
theorem cutHost_append {inBrackets : Bool} {l : List Char}
    (h : ∀ c ∈ l, isBare c ∨ (inBrackets = true ∧ c = ':')) (rest : List Char) :
    cutHost inBrackets (l ++ rest) = (l ++ (cutHost inBrackets rest).1, (cutHost inBrackets rest).2) := by
  induction l with
  | nil => rfl
  | cons c l ih =>
    obtain ⟨hc, hl⟩ := List.forall_mem_cons.1 h
    have hgoes : ¬ (c = ':' ∧ inBrackets = false) := by
      rintro ⟨rfl, rfl⟩
      simp [isBare] at hc
    have hopen : c ≠ '[' := by
      rintro rfl
      simp [isBare] at hc
    have hclosed : c ≠ ']' := by
      rintro rfl
      simp [isBare] at hc
    rw [List.cons_append, cutHost, if_neg hgoes, if_neg hopen, if_neg hclosed, ih hl]
    rfl

theorem cutHost_chars {h : Host} (hs : h.Settled) {rest : List Char} (hrest : ∀ c ∈ rest.head?, c = ':') :
    cutHost false (h.chars ++ rest) = (h.chars, rest) := by
  have hstop : cutHost false rest = ([], rest) := by
    cases rest with
    | nil => rfl
    | cons c rest =>
      obtain rfl := hrest c rfl
      simp [cutHost]
  rcases hs.chars_cases with ⟨-, hbare⟩ | ⟨l, htext, hinner⟩
  · rw [cutHost_append fun c hc => Or.inl (hbare c hc), hstop, List.append_nil]
  · have hclose : cutHost true (']' :: rest) = ([']'], rest) := by
      rw [cutHost]
      simp [hstop]
    have hopen : cutHost true (l ++ ']' :: rest) = (l ++ [']'], rest) := by
      rw [cutHost_append (by simpa using hinner), hclose]
    rw [htext, show '[' :: l ++ [']'] ++ rest = '[' :: (l ++ ']' :: rest) by simp, cutHost]
    simp [hopen]

theorem port?_portChars {scheme : Scheme} {a : Authority} (h : a.Settled scheme) :
    port? scheme a.portChars = some a.port := by
  unfold Authority.portChars
  cases hport : a.port with
  | none => rfl
  | some n =>
    obtain ⟨hn, husual⟩ := h.port n hport
    dsimp only
    rw [Text.toList_toString]
    obtain ⟨c, l, hdigits⟩ := List.exists_cons_of_ne_nil (Nat.toDigits_ne_nil (n := n) (b := 10))
    have hread := Text.decimal?_toDigits n
    rw [hdigits] at hread ⊢
    simp [port?, hread, husual, Nat.not_lt.2 hn]

/-! ## The whole authority -/

theorem hostChars_ne_nil {h : Host} (hs : h.Settled) : h.chars ≠ [] := by
  rcases hs.chars_cases with ⟨hne, -⟩ | ⟨l, htext, -⟩
  · exact hne
  · simp [htext]

theorem mem_hostChars_portChars {scheme : Scheme} {a : Authority} (h : a.Settled scheme) :
    ∀ c ∈ a.host.chars ++ a.portChars, isBare c ∨ c ∈ [':', '[', ']'] := by
  refine List.forall_mem_append.2 ⟨fun c hc => ?_, fun c hc => ?_⟩
  · rcases h.host.chars_cases with ⟨-, hbare⟩ | ⟨l, htext, hinner⟩
    · exact Or.inl (hbare c hc)
    · rw [htext] at hc
      simp only [List.cons_append, List.mem_cons, List.mem_append, List.not_mem_nil, or_false] at hc
      rcases hc with rfl | hc | rfl
      · simp
      · exact (hinner c hc).imp_right (by simp +contextual)
      · simp
  · unfold Authority.portChars at hc
    split at hc
    · rcases List.mem_cons.1 hc with rfl | hc
      · simp
      · rw [Text.toList_toString] at hc
        obtain ⟨d, hd, rfl⟩ := Text.mem_toDigits (by decide) c hc
        exact Or.inl (Host.isBare_digitChar d (by omega)).1
    · cases hc

/-- In the text of an authority stand only marks of its own. -/
theorem mem_chars {scheme : Scheme} {a : Authority} (h : a.Settled scheme) :
    ∀ c ∈ a.chars, isBare c ∨ c ∈ [':', '@', '[', ']'] := by
  have huser : ∀ c ∈ a.userChars, isBare c ∨ c ∈ [':', '@', '[', ']'] := by
    have hname (c) (hc : c ∈ a.username.toList) := isBare_of_keepsInUserInfo (h.username c hc)
    have hpassword (c) (hc : c ∈ a.password.toList) := isBare_of_keepsInUserInfo (h.password c hc)
    intro c hc
    unfold Authority.userChars at hc
    split at hc
    · cases hc
    · simp only [List.mem_append, List.mem_singleton] at hc
      rcases hc with (hc | hc) | rfl
      · exact Or.inl (hname c hc)
      · split at hc
        · cases hc
        · rcases List.mem_cons.1 hc with rfl | hc
          · simp
          · exact Or.inl (hpassword c hc)
      · simp
  rw [Authority.chars, List.append_assoc]
  refine List.forall_mem_append.2 ⟨huser, fun c hc => ?_⟩
  rcases mem_hostChars_portChars h c hc with hbare | hmark
  · exact Or.inl hbare
  · simp only [List.mem_cons, List.not_mem_nil, or_false] at hmark
    rcases hmark with rfl | rfl | rfl <;> simp

theorem chars_ne_nil {scheme : Scheme} {a : Authority} (h : a.Settled scheme) : a.chars ≠ [] := by
  simp [Authority.chars, hostChars_ne_nil h.host]

/-- User and password in the text are cut off as they are, or there are none. -/
theorem cutUser_chars {scheme : Scheme} {a : Authority} (h : a.Settled scheme) :
    (cutUser a.chars).2 = a.host.chars ++ a.portChars ∧
      userInfo ((cutUser a.chars).1.getD []) = (a.username, a.password) := by
  have hplace : '@' ∉ a.host.chars ++ a.portChars := by
    intro hmem
    have := mem_hostChars_portChars h '@' hmem
    exact absurd this (by decide)
  rw [Authority.chars, List.append_assoc, Authority.userChars]
  split
  · next hempty =>
    simp only [Bool.and_eq_true, String.isEmpty_iff] at hempty
    rw [List.nil_append, cutUser_of_none hplace, hempty.1, hempty.2]
    exact ⟨rfl, rfl⟩
  · rw [show ∀ l : List Char, l ++ ['@'] ++ (a.host.chars ++ a.portChars) =
      l ++ '@' :: (a.host.chars ++ a.portChars) by simp, cutUser_append _ hplace]
    exact ⟨rfl, userInfo_append h.username h.password⟩

/-- A settled authority is read as itself. -/
theorem authority?_chars {scheme : Scheme} {a : Authority} (hspecial : scheme.isSpecial)
    (h : a.Settled scheme) (ends : Bool) : authority? scheme a.chars ends = some a := by
  obtain ⟨hrest, huser⟩ := cutUser_chars h
  have hhost : host? scheme a.host.chars = some a.host := by
    rw [host?, if_pos hspecial, h.host.ofSpecial?_chars]
  have hcut : cutHost false (cutUser a.chars).2 = (a.host.chars, a.portChars) := by
    rw [hrest]
    refine cutHost_chars h.host ?_
    unfold Authority.portChars
    split <;> simp
  have hne : ¬ a.host.chars.isEmpty := by simpa using hostChars_ne_nil h.host
  unfold authority?
  dsimp only
  rw [hcut, huser, Text.bind_eq_of_some hhost, Text.bind_eq_of_some (port?_portChars h), if_neg]
  exact fun hempty => hne hempty.1

theorem settled_of_port? {scheme : Scheme} {l : List Char} {port : Option Nat}
    (h : port? scheme l = some port) :
    ∀ n, port = some n → n ≤ 65535 ∧ scheme.usualPort? ≠ some n := by
  rintro n rfl
  unfold port? at h
  split at h
  · cases h
  · cases h
  · split at h
    · split at h
      · cases h
      · next hfits =>
        have hport := Option.some.inj h
        split at hport
        · cases hport
        · next husual =>
          obtain rfl := Option.some.inj hport
          exact ⟨Nat.not_lt.1 hfits, husual⟩
    · cases h

/-- What is read as an authority is settled. -/
theorem settled_of_authority? {scheme : Scheme} {l : List Char} {ends : Bool} {a : Authority}
    (hspecial : scheme.isSpecial) (h : authority? scheme l ends = some a) : a.Settled scheme := by
  unfold authority? at h
  dsimp only at h
  obtain ⟨host, hhost, h⟩ := Text.of_bind_eq_some h
  obtain ⟨port, hport, h⟩ := Text.of_bind_eq_some h
  split at h
  · cases h
  · obtain rfl := Option.some.inj h
    rw [host?, if_pos hspecial] at hhost
    refine ⟨?_, ?_, Host.settled_of_ofSpecial? hhost, settled_of_port? hport⟩ <;>
    · dsimp only [userInfo, encoded]
      rw [String.toList_ofList]
      exact keeps_percentEncode keepsCodes_userInfo _

end Url

end HuntBoard
