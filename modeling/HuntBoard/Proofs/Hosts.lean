-- Hosts as they are written: each that was read is one that reads as itself.
import HuntBoard.Proofs.Digits
import HuntBoard.Proofs.HostNames
import Mathlib.Data.List.TakeWhile

namespace HuntBoard.Host

open Text (pieces joined numberOf)

/-! ## Numbers of 32 bits -/

/-- The decimal digits of a number. -/
def decimalText (n : Nat) : List Char := Nat.toDigits 10 n

theorem isDigit_decimalText (n : Nat) : ∀ c ∈ decimalText n, c.isDigit := Text.isDigit_toDigits n

theorem decimalText_ne_nil (n : Nat) : decimalText n ≠ [] := Nat.toDigits_ne_nil

theorem v4Text_eq (n : Nat) : v4Text n = joined '.' ((Text.fixedDigits 256 4 n).map decimalText) := by
  unfold v4Text
  congr 1
  exact List.map_congr_left fun b _ => Text.toList_toString b

theorem number?_of_head {l : List Char} (hne : l ≠ []) (h : l.head? ≠ some '0') :
    number? l = Text.decimal? l := by
  unfold number?
  split <;> simp_all

/-- Written in decimal, a number is none that a zero in front makes octal. -/
theorem number?_decimalText (n : Nat) : number? (decimalText n) = some n := by
  by_cases hhead : (Nat.toDigits 10 n).head? = some '0'
  · obtain rfl := Text.toDigits_head_zero hhead
    rfl
  · unfold decimalText
    rw [number?_of_head Nat.toDigits_ne_nil hhead, Text.decimal?_toDigits]

/-- The four parts of a number of 32 bits. -/
theorem parts_v4Text (n : Nat) : parts (v4Text n) = (Text.fixedDigits 256 4 n).map decimalText := by
  have hpieces : pieces (· == '.') (v4Text n) = (Text.fixedDigits 256 4 n).map decimalText := by
    rw [v4Text_eq]
    refine Text.pieces_joined (by decide) (by simp [Text.fixedDigits]) ?_
    refine List.forall_mem_map.2 fun b _ c hc => ?_
    have hdigit := isDigit_decimalText b c hc
    rw [beq_eq_false_iff_ne]
    rintro rfl
    exact absurd hdigit (by decide)
  unfold parts
  rw [hpieces, if_neg]
  rintro ⟨-, hlast⟩
  simp [Text.fixedDigits, decimalText_ne_nil] at hlast

theorem endsInNumber_v4Text (n : Nat) : endsInNumber (v4Text n) = true := by
  have hall (b : Nat) : (decimalText b).all Char.isDigit := List.all_eq_true.2 (isDigit_decimalText b)
  unfold endsInNumber
  rw [parts_v4Text]
  simp [Text.fixedDigits, decimalText_ne_nil, hall]

theorem v4?_v4Text {n : Nat} (h : n < 2 ^ 32) : v4? (v4Text n) = some n := by
  have hread : ((Text.fixedDigits 256 4 n).map decimalText).mapM number? =
      some (Text.fixedDigits 256 4 n) := by
    rw [List.mapM_map, Text.mapM_eq_some_map (f := id), List.map_id]
    exact fun b _ => number?_decimalText b
  unfold v4?
  rw [parts_v4Text, Text.bind_eq_of_some hread]
  simp [Text.fixedDigits, numberOf]
  omega

theorem lt_of_v4? {l : List Char} {n : Nat} (h : v4? l = some n) : n < 2 ^ 32 := by
  unfold v4? at h
  obtain ⟨ns, -, h⟩ := Text.of_bind_eq_some h
  obtain ⟨last, hlast, h⟩ := Text.of_bind_eq_some h
  dsimp only at h
  split at h
  · next hfits =>
    obtain ⟨hcount, hbytes, hbound⟩ := hfits
    obtain rfl := Option.some.inj h
    have hlength : ns.dropLast.length ≤ 3 := by
      rw [List.length_dropLast]
      omega
    have hfirst : numberOf 256 ns.dropLast < 256 ^ ns.dropLast.length :=
      Text.numberOf_lt fun b hb => by simpa using List.all_eq_true.1 hbytes b hb
    generalize ns.dropLast.length = count at *
    calc
      numberOf 256 ns.dropLast * 256 ^ (4 - count) + last
          < (numberOf 256 ns.dropLast + 1) * 256 ^ (4 - count) := by
        rw [Nat.add_mul, Nat.one_mul]
        exact Nat.add_lt_add_left hbound _
      _ ≤ 256 ^ count * 256 ^ (4 - count) := Nat.mul_le_mul_right _ hfirst
      _ = 256 ^ 4 := by rw [← Nat.pow_add, Nat.add_sub_cancel' (by omega)]
  · cases h

/-! ## Numbers of 128 bits -/

/-- A character that parts nothing from anything else in an address, and is no blank. -/
def isBare (c : Char) : Bool :=
  0x20 < c.toNat && !([':', '[', ']', '/', '\\', '?', '#', '@'].contains c)

theorem isBare_digitChar : ∀ d < 16, isBare d.digitChar ∧ d.digitChar ≠ '.' := by decide

theorem isBare_hexText {n : Nat} : ∀ c ∈ hexText n, isBare c ∧ c ≠ '.' := by
  intro c hc
  obtain ⟨d, hd, rfl⟩ := Text.mem_toDigits (by decide) c hc
  exact isBare_digitChar d hd

theorem ne_colon_of_isBare {c : Char} (h : isBare c) : c ≠ ':' := by
  rintro rfl
  exact absurd h (by decide)

theorem hexText_ne_nil (n : Nat) : hexText n ≠ [] := Nat.toDigits_ne_nil

theorem not_mem_hexText (n : Nat) : '.' ∉ hexText n := fun h => (isBare_hexText _ h).2 rfl

theorem group?_hexText {n : Nat} (h : n < 65536) : group? (hexText n) = some n := by
  have hlength : (hexText n).length ≤ 4 := (Nat.length_toDigits_le_iff (by decide) (by decide)).2 h
  rw [group?, if_neg, hexText, Text.hex?_toDigits]
  simp [hexText_ne_nil, hlength]

theorem groups?_hexText {l : List Nat} (h : ∀ n ∈ l, n < 65536) : groups? (l.map hexText) = some l := by
  induction l with
  | nil => rfl
  | cons n l ih =>
    obtain ⟨hn, hl⟩ := List.forall_mem_cons.1 h
    cases l with
    | nil => simp [groups?, not_mem_hexText, group?_hexText hn]
    | cons m l =>
      rw [List.map_cons, groups?, Text.bind_eq_of_some (group?_hexText hn), Text.bind_eq_of_some (ih hl)]
      simp

/-- Groups with colons between them. -/
def groupText (l : List Nat) : List Char := joined ':' (l.map hexText)

theorem mem_groupText {l : List Nat} {c : Char} (h : c ∈ groupText l) :
    c = ':' ∨ (isBare c ∧ c ≠ '.') := by
  rcases Text.mem_joined h with h | ⟨p, hp, h⟩
  · exact Or.inl h
  · obtain ⟨n, -, rfl⟩ := List.mem_map.1 hp
    exact Or.inr (isBare_hexText c h)

theorem not_mem_groupText (l : List Nat) : '.' ∉ groupText l := fun h => by
  simpa using mem_groupText h

theorem groupText_cons (n : Nat) (l : List Nat) :
    groupText (n :: l) = hexText n ++ if l = [] then [] else ':' :: groupText l := by
  cases l <;> simp [groupText, joined]

theorem groupText_cons_ne_nil (n : Nat) (l : List Nat) : groupText (n :: l) ≠ [] := by
  simp [groupText_cons, hexText_ne_nil]

theorem groupsOf?_groupText {l : List Nat} (h : ∀ n ∈ l, n < 65536) : groupsOf? (groupText l) = some l := by
  cases l with
  | nil => rfl
  | cons n l =>
    have hpieces : pieces (· == ':') (groupText (n :: l)) = (n :: l).map hexText := by
      refine Text.pieces_joined (by decide) (by simp) ?_
      refine List.forall_mem_map.2 fun m _ c hc => ?_
      simpa using ne_colon_of_isBare (isBare_hexText c hc).1
    rw [groupsOf?, if_neg (by simp [groupText_cons_ne_nil]), hpieces, groups?_hexText h]

/-! ### The gap -/

/-- Past characters that are no colons the gap is looked for behind them. -/
theorem atGap?_append {p : List Char} (h : ∀ c ∈ p, c ≠ ':') (l : List Char) :
    atGap? (p ++ l) = (atGap? l).map (Prod.map (p ++ ·) id) := by
  induction p with
  | nil => rcases h : atGap? l with _ | ⟨a, b⟩ <;> simp [h]
  | cons c p ih =>
    obtain ⟨hc, hp⟩ := List.forall_mem_cons.1 h
    rw [List.cons_append, atGap?, ih hp]
    · cases atGap? l <;> rfl
    · simp [hc]

theorem atGap?_colon {c : Char} (h : c ≠ ':') (l : List Char) :
    atGap? (':' :: c :: l) = (atGap? (c :: l)).map (Prod.map (':' :: ·) id) := by
  rw [atGap?]
  · rfl
  · simp [h]

theorem ne_colon_of_mem_hexText {n : Nat} : ∀ c ∈ hexText n, c ≠ ':' := fun c hc =>
  ne_colon_of_isBare (isBare_hexText c hc).1

/-- Groups have no gap among them, so that the first gap is behind them. -/
theorem atGap?_groupText (l : List Nat) (rest : List Char) :
    atGap? (groupText l ++ rest) = (atGap? rest).map (Prod.map (groupText l ++ ·) id) := by
  induction l with
  | nil => rcases h : atGap? rest with _ | ⟨a, b⟩ <;> simp [groupText, joined, h]
  | cons n l ih =>
    rw [groupText_cons, List.append_assoc, atGap?_append ne_colon_of_mem_hexText]
    cases l with
    | nil => simp
    | cons m l =>
      obtain ⟨c, cs, hcs⟩ := List.exists_cons_of_ne_nil (hexText_ne_nil m)
      have hc : c ≠ ':' := ne_colon_of_mem_hexText (n := m) c (by simp [hcs])
      obtain ⟨cs', hcs'⟩ : ∃ cs', groupText (m :: l) ++ rest = c :: cs' :=
        ⟨_, by rw [groupText_cons, hcs]; rfl⟩
      rw [hcs'] at ih
      simp only [reduceCtorEq, if_false, List.cons_append]
      rw [hcs', atGap?_colon hc, ih]
      rcases atGap? rest with _ | ⟨a, b⟩ <;> simp

/-- The longest run of zeros is one. -/
theorem longestZeros_spec (l : List Nat) :
    (longestZeros l).1 + (longestZeros l).2 ≤ l.length ∧
      ∀ n ∈ (l.drop (longestZeros l).1).take (longestZeros l).2, n = 0 := by
  induction l with
  | nil => simp [longestZeros]
  | cons n l ih =>
    unfold longestZeros
    dsimp only
    split
    · have hprefix := List.takeWhile_prefix (p := fun n => decide (n = 0)) (l := n :: l)
      refine ⟨by simpa [zeros] using hprefix.length_le, ?_⟩
      rw [List.drop_zero, zeros, ← List.prefix_iff_eq_take.1 hprefix]
      intro m hm
      simpa using List.mem_takeWhile_imp hm
    · refine ⟨?_, ih.2⟩
      rw [List.length_cons]
      omega

theorem v6?_v6Text {l : List Nat} (hlength : l.length = 8) (h : ∀ n ∈ l, n < 65536) :
    v6? (v6Text l) = some l := by
  obtain ⟨hin, hzeros⟩ := longestZeros_spec l
  unfold v6Text
  generalize longestZeros l = run at *
  obtain ⟨place, length⟩ := run
  dsimp only at *
  split
  · have hgap : atGap? (groupText l) = none := by
      have happend := atGap?_groupText l []
      rwa [List.append_nil] at happend
    change v6? (groupText l) = some l
    unfold v6?
    rw [hgap]
    simp [groupsOf?_groupText h, hlength]
  · next hlong =>
    have hgap : atGap? (groupText (l.take place) ++ ':' :: ':' :: groupText (l.drop (place + length))) =
        some (groupText (l.take place), groupText (l.drop (place + length))) := by
      rw [atGap?_groupText, atGap?]
      simp
    have hbefore : groupsOf? (groupText (l.take place)) = some (l.take place) :=
      groupsOf?_groupText fun n hn => h n (List.mem_of_mem_take hn)
    have hbehind : groupsOf? (groupText (l.drop (place + length))) = some (l.drop (place + length)) :=
      groupsOf?_groupText fun n hn => h n (List.mem_of_mem_drop hn)
    have hrun : (l.drop place).take length = List.replicate length 0 :=
      List.eq_replicate_iff.2 ⟨by rw [List.length_take, List.length_drop]; omega, hzeros⟩
    have hparts : l.take place ++ List.replicate length 0 ++ l.drop (place + length) = l := by
      rw [← hrun, List.append_assoc, ← List.drop_drop, List.take_append_drop, List.take_append_drop]
    have hleft : 8 - (l.take place).length - (l.drop (place + length)).length = length := by
      rw [List.length_take, List.length_drop]
      omega
    have hroom : ¬ 7 < (l.take place).length + (l.drop (place + length)).length := by
      rw [List.length_take, List.length_drop]
      omega
    have htext : joined ':' ((l.take place).map hexText) ++ [':', ':'] ++
        joined ':' ((l.drop (place + length)).map hexText) =
          groupText (l.take place) ++ ':' :: ':' :: groupText (l.drop (place + length)) := by
      simp [groupText]
    unfold v6?
    rw [htext, hgap]
    dsimp only
    rw [Text.bind_eq_of_some hbefore, Text.bind_eq_of_some hbehind, if_neg, hleft, hparts]
    simpa [not_mem_groupText] using hroom

/-! ### What is read as groups -/

theorem lt_of_group? {l : List Char} {n : Nat} (h : group? l = some n) : n < 65536 := by
  unfold group? at h
  split at h
  · cases h
  · next hlength =>
    obtain ⟨ds, hds, rfl⟩ := Option.map_eq_some_iff.1 h
    have hmap := Text.of_mapM_eq_some hds
    have hdigits : ∀ d ∈ ds, d < 16 := by
      intro d hd
      have hmem : some d ∈ l.map Text.hexDigit? := hmap ▸ List.mem_map_of_mem hd
      obtain ⟨c, -, hc⟩ := List.mem_map.1 hmem
      exact Text.hexDigit?_lt hc
    have hcount : ds.length ≤ 4 := by
      have := congrArg List.length hmap
      rw [List.length_map, List.length_map] at this
      omega
    calc
      numberOf 16 ds < 16 ^ ds.length := Text.numberOf_lt hdigits
      _ ≤ 16 ^ 4 := Nat.pow_le_pow_right (by decide) hcount

theorem lt_of_byte? {l : List Char} {n : Nat} (h : byte? l = some n) : n < 256 := by
  unfold byte? at h
  split at h
  · cases h
  · simpa using (Option.filter_eq_some_iff.1 h).2

theorem lt_of_dotted? {l : List Char} {ns : List Nat} (h : dotted? l = some ns) : ∀ n ∈ ns, n < 65536 := by
  unfold dotted? at h
  split at h
  · next a b c d hbytes =>
    obtain rfl := Option.some.inj h
    have hlt : ∀ x ∈ [a, b, c, d], x < 256 := by
      intro x hx
      have hmem : some x ∈ (pieces (· == '.') l).map byte? :=
        Text.of_mapM_eq_some hbytes ▸ List.mem_map_of_mem hx
      obtain ⟨p, -, hp⟩ := List.mem_map.1 hmem
      exact lt_of_byte? hp
    simp only [List.forall_mem_cons, List.not_mem_nil, false_imp_iff, implies_true, and_true] at hlt ⊢
    omega
  · cases h

theorem lt_of_groups? {ps : List (List Char)} {ns : List Nat} (h : groups? ps = some ns) :
    ∀ n ∈ ns, n < 65536 := by
  fun_induction groups? ps generalizing ns with
  | case1 =>
    obtain rfl := Option.some.inj h
    simp
  | case2 p hdot => exact lt_of_dotted? h
  | case3 p hdot =>
    obtain ⟨n, hn, rfl⟩ := Option.map_eq_some_iff.1 h
    simpa using lt_of_group? hn
  | case4 p ps hps ih =>
    obtain ⟨n, hn, h⟩ := Text.of_bind_eq_some h
    obtain ⟨ms, hms, h⟩ := Text.of_bind_eq_some h
    obtain rfl := Option.some.inj h
    exact List.forall_mem_cons.2 ⟨lt_of_group? hn, ih hms⟩

theorem lt_of_groupsOf? {l : List Char} {ns : List Nat} (h : groupsOf? l = some ns) :
    ∀ n ∈ ns, n < 65536 := by
  unfold groupsOf? at h
  split at h
  · obtain rfl := Option.some.inj h
    simp
  · exact lt_of_groups? h

theorem of_v6? {l : List Char} {ns : List Nat} (h : v6? l = some ns) :
    ns.length = 8 ∧ ∀ n ∈ ns, n < 65536 := by
  unfold v6? at h
  split at h
  · obtain ⟨hgroups, hlength⟩ := Option.filter_eq_some_iff.1 h
    exact ⟨by simpa using hlength, lt_of_groupsOf? hgroups⟩
  · obtain ⟨a, ha, h⟩ := Text.of_bind_eq_some h
    obtain ⟨b, hb, h⟩ := Text.of_bind_eq_some h
    split at h
    · cases h
    · next hroom =>
      obtain rfl := Option.some.inj h
      constructor
      · simp only [List.length_append, List.length_replicate]
        omega
      · have hgap : ∀ n ∈ List.replicate (8 - a.length - b.length) 0, n < 65536 := by
          intro n hn
          rw [(List.mem_replicate.1 hn).2]
          decide
        simp only [List.forall_mem_append]
        exact ⟨⟨lt_of_groupsOf? ha, hgap⟩, lt_of_groupsOf? hb⟩

/-! ## Hosts of special addresses -/

/-- A host as it stands in a special address. -/
def Settled : Host → Prop
  | name s => s ≠ "" ∧ (∀ c ∈ s.toList, Text.IsLowerAscii c ∧ isForbiddenInDomain c = false) ∧
      endsInNumber s.toList = false
  | v4 n => n < 2 ^ 32
  | v6 l => l.length = 8 ∧ ∀ n ∈ l, n < 65536

/-- What is read as a host is one that stands as it is. -/
theorem settled_of_ofSpecial? {l : List Char} {h : Host} (hread : ofSpecial? l = some h) : h.Settled := by
  unfold ofSpecial? at hread
  split at hread
  · split at hread
    · obtain ⟨ns, hns, rfl⟩ := Option.map_eq_some_iff.1 hread
      exact of_v6? hns
    · cases hread
  · obtain ⟨text, -, hread⟩ := Text.of_bind_eq_some hread
    dsimp only at hread
    split at hread
    · cases hread
    · next hvalid =>
      rw [not_or] at hvalid
      split at hread
      · obtain ⟨n, hn, rfl⟩ := Option.map_eq_some_iff.1 hread
        exact lt_of_v4? hn
      · next hnumber =>
        obtain rfl := Option.some.inj hread
        refine ⟨?_, ?_, ?_⟩
        · simpa using hvalid.1
        · rw [String.toList_ofList]
          intro c hc
          refine ⟨isLowerAscii_asciiDomain _ c hc, ?_⟩
          simpa using fun hforbidden => hvalid.2 (List.any_eq_true.2 ⟨c, hc, hforbidden⟩)
        · rw [String.toList_ofList]
          simpa using hnumber

theorem isBare_of_not_forbidden {c : Char} (h : isForbiddenInDomain c = false) : isBare c ∧ c ≠ '%' := by
  simp only [isForbiddenInDomain, isForbidden, Bool.or_eq_false_iff, decide_eq_false_iff_not] at h
  obtain ⟨⟨⟨⟨-, hmarks⟩, hcontrol⟩, hpercent⟩, -⟩ := h
  simp only [isBare, Bool.and_eq_true, decide_eq_true_eq]
  simp at hmarks
  refine ⟨⟨?_, by simp [hmarks]⟩, hpercent⟩
  have hne : c.toNat ≠ 0x20 := fun hc => hmarks.2.2.2.1 (Char.toNat_inj.1 hc)
  omega

/-- A name without marks is read as what it is. -/
theorem ofSpecial?_of_bare {l : List Char} (hne : l ≠ [])
    (h : ∀ c ∈ l, Text.IsLowerAscii c ∧ isForbiddenInDomain c = false) :
    ofSpecial? l = if endsInNumber l then (v4? l).map v4 else some (name (String.ofList l)) := by
  have hbracket : l.head? ≠ some '[' := by
    intro hhead
    have hforbidden := (h '[' (List.mem_of_head? hhead)).2
    exact absurd hforbidden (by decide)
  have hpercent : ¬ l.contains '%' := by
    intro hmem
    exact (isBare_of_not_forbidden (h '%' (by simpa using hmem)).2).2 rfl
  have hvalid : ¬ (l.isEmpty ∨ l.any isForbiddenInDomain) := by
    rw [not_or]
    refine ⟨by simpa using hne, fun hany => ?_⟩
    obtain ⟨c, hc, hforbidden⟩ := List.any_eq_true.1 hany
    rw [(h c hc).2] at hforbidden
    cases hforbidden
  unfold ofSpecial? decoded?
  rw [if_neg hbracket, if_neg hpercent, Text.bind_of_some, asciiDomain_of_isLowerAscii fun c hc => (h c hc).1]
  exact if_neg hvalid

theorem mem_v4Text {n : Nat} {c : Char} (h : c ∈ v4Text n) :
    Text.IsLowerAscii c ∧ isForbiddenInDomain c = false := by
  have hdigits : ∀ d < 10, Text.IsLowerAscii d.digitChar ∧ isForbiddenInDomain d.digitChar = false := by
    decide
  rw [v4Text_eq] at h
  rcases Text.mem_joined h with rfl | ⟨p, hp, hc⟩
  · decide
  · obtain ⟨b, -, rfl⟩ := List.mem_map.1 hp
    obtain ⟨d, hd, rfl⟩ := Text.mem_toDigits (by decide) c hc
    exact hdigits d hd

theorem v4Text_ne_nil (n : Nat) : v4Text n ≠ [] := by
  rw [v4Text_eq]
  simp [Text.fixedDigits, joined, decimalText_ne_nil]

/-- A settled host is read as itself. -/
theorem Settled.ofSpecial?_chars {h : Host} (hs : h.Settled) : ofSpecial? h.chars = some h := by
  cases h with
  | name s =>
    obtain ⟨hne, hchars, hnumber⟩ := hs
    rw [chars, ofSpecial?_of_bare (by simpa using hne) hchars, hnumber, String.ofList_toList]
    rfl
  | v4 n =>
    rw [chars, ofSpecial?_of_bare (v4Text_ne_nil n) fun c hc => mem_v4Text hc, endsInNumber_v4Text,
      v4?_v4Text hs]
    rfl
  | v6 l =>
    have hinner : ((chars (v6 l)).drop 1).dropLast = v6Text l := by simp [chars]
    have hlast : (chars (v6 l)).getLast? = some ']' := List.getLast?_concat
    unfold ofSpecial?
    rw [if_pos (by simp [chars]), if_pos ⟨hlast, by simp [chars]⟩, hinner, v6?_v6Text hs.1 hs.2]
    rfl

/-! ### The text of a host -/

/-- In the text of a host stands nothing that ends it, but for the brackets around groups. -/
theorem Settled.chars_cases {h : Host} (hs : h.Settled) :
    (h.chars ≠ [] ∧ ∀ c ∈ h.chars, isBare c) ∨
      ∃ l, h.chars = '[' :: l ++ [']'] ∧ ∀ c ∈ l, isBare c ∨ c = ':' := by
  cases h with
  | name s =>
    refine Or.inl ⟨by simpa [chars] using hs.1, fun c hc => ?_⟩
    exact (isBare_of_not_forbidden (hs.2.1 c hc).2).1
  | v4 n =>
    refine Or.inl ⟨v4Text_ne_nil n, fun c hc => ?_⟩
    exact (isBare_of_not_forbidden (mem_v4Text hc).2).1
  | v6 l =>
    refine Or.inr ⟨v6Text l, by simp [chars], ?_⟩
    have hgroups (l : List Nat) : ∀ c ∈ joined ':' (l.map hexText), isBare c ∨ c = ':' :=
      fun c hc => (mem_groupText hc).symm.imp_left And.left
    have hgap : ∀ c ∈ [':', ':'], isBare c ∨ c = ':' := by simp
    unfold v6Text
    dsimp only
    split
    · exact hgroups l
    · simp only [List.forall_mem_append]
      exact ⟨⟨hgroups _, hgap⟩, hgroups _⟩

end HuntBoard.Host
