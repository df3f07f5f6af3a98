-- What is written as JSON reads back: numbers, maps, puzzles, rounds, settings, who looks at
-- what, hunters, and changes. Only the reminder of a puzzle comes back as the reader takes it.
import HuntBoard.Proofs.JsonText
import HuntBoard.Proofs.Stamps
import HuntBoard.Wire.SyncEvent
import Mathlib.Data.List.Nodup
import Mathlib.Data.Set.List

namespace HuntBoard

/-! ## Numbers -/

namespace Json

theorem asInt64?_ofInt64 (n : Int64) : asInt64? (ofInt64 n) = some n := by
  have hlow := n.le_toInt
  have hhigh := n.toInt_lt
  rw [ofInt64, asInt64?, int64?, if_pos (by omega), Int64.ofInt_toInt]

theorem asUInt64?_ofUInt64 (n : UInt64) : asUInt64? (ofUInt64 n) = some n := by
  have hhigh := n.toNat_lt
  rw [ofUInt64, asUInt64?, if_pos (by omega), Int.toNat_natCast, uint64?,
    if_pos (by simpa [UInt64.size] using hhigh), UInt64.ofNat_toNat]

theorem asPuzzleId?_ofPuzzleId (p : PuzzleId) : asPuzzleId? (ofPuzzleId p) = some p := by
  rw [ofPuzzleId, asPuzzleId?, asInt64?_ofInt64, Option.map_some]

theorem asRoundId?_ofRoundId (r : RoundId) : asRoundId? (ofRoundId r) = some r := by
  rw [ofRoundId, asRoundId?, asInt64?_ofInt64, Option.map_some]

theorem asChangeId?_ofChangeId (c : ChangeId) : asChangeId? (ofChangeId c) = some c := by
  rw [ofChangeId, asChangeId?, asUInt64?_ofUInt64, Option.map_some]

theorem plain_ofInt64 (room : Nat) (n : Int64) : Plain room (ofInt64 n) := by
  have hlow := n.le_toInt
  have hhigh := n.toInt_lt
  exact .int (by omega) (by omega)

theorem plain_ofUInt64 (room : Nat) (n : UInt64) : Plain room (ofUInt64 n) := by
  have hhigh := n.toNat_lt
  exact .int (by omega) (by omega)

/-- A whole number is read back as the name of a member. -/
theorem intKey?_toString (n : Int) : intKey? (toString n) = some n := by
  have hlist := Text.toList_toString_int n
  unfold intKey?
  by_cases hneg : n < 0
  · have hzero : (Nat.toDigits 10 n.natAbs).head? ≠ some '0' := by
      intro h
      have := Text.toDigits_head_zero h
      omega
    have hvalue : -(n.natAbs : Int) = n := by omega
    rw [hlist, if_pos hneg]
    simp only [List.cons_append, List.nil_append, if_neg hzero, Text.decimal?_toDigits]
    exact congrArg some hvalue
  · have hzero : ¬ ((Nat.toDigits 10 n.natAbs).head? = some '0' ∧ (Nat.toDigits 10 n.natAbs).length > 1) := by
      rintro ⟨hhead, hlength⟩
      simp [Text.toDigits_head_zero hhead] at hlength
    have hvalue : (n.natAbs : Int) = n := by omega
    rw [if_neg hneg, List.nil_append] at hlist
    split
    · next ds hminus =>
      have hmem : '-' ∈ Nat.toDigits 10 n.natAbs := by
        rw [← hlist, hminus]
        exact List.mem_cons_self ..
      exact absurd (Text.isDigit_toDigits _ _ hmem) (by decide)
    · rw [hlist, if_neg hzero, Text.decimal?_toDigits]
      exact congrArg some hvalue

theorem puzzleKey?_text (p : PuzzleId) : puzzleKey? p.text = some p := by
  rw [puzzleKey?, PuzzleId.text, intKey?_toString]
  exact asPuzzleId?_ofPuzzleId p

/-! ## Maps -/

variable {κ α : Type} [Ord κ] {name : κ → String} {write : α → Json}

/-- A map as an object, with its keys as names. -/
def ofMap (name : κ → String) (write : α → Json) (m : KeyedMap κ α) : Json :=
  .obj (sortMembers (m.toList.map (Prod.map name write)))

/-- A map with texts as keys, which are in the order of names already. -/
def ofTextMap (write : α → Json) (m : KeyedMap String α) : Json :=
  .obj (m.toList.map fun e => (e.1, write e.2))

theorem ofTextMap_eq (write : α → Json) (m : KeyedMap String α) :
    ofTextMap write m = ofMap id write m := by
  have hnames : Entries.Ascending (m.toList.map (Prod.map id write)) := List.pairwise_map.2 m.ascending
  exact congrArg Json.obj (sortMembers_of_ascending hnames).symm

theorem plain_ofMap {room : Nat} (hwrite : ∀ v, Plain room (write v)) (m : KeyedMap κ α) :
    Plain (room + 1) (ofMap name write m) := by
  have hlist : ∀ x ∈ m.toList.map (Prod.map name write), Plain room x.2 := by
    intro x hx
    obtain ⟨e, -, rfl⟩ := List.mem_map.1 hx
    exact hwrite e.2
  have hall := KeyedMap.all_ofList (P := fun _ j => Plain room j) hlist
  exact .obj (KeyedMap.ascending _) fun x hx => hall x.1 x.2 ((KeyedMap.get?_eq_some_iff ..).2 hx)

/-- A map is read back from its object when its keys and its values are. -/
theorem asMap?_ofMap [Std.TransOrd κ] [Std.LawfulEqOrd κ] {key : String → Option κ}
    {read : Json → Option α} (hkey : ∀ k, key (name k) = some k) (hread : ∀ v, read (write v) = some v)
    (m : KeyedMap κ α) :
    asMap? key read (ofMap name write m) = some m := by
  have hname : Function.Injective name := fun a b hab =>
    Option.some.inj ((hkey a).symm.trans ((congrArg key hab).trans (hkey b)))
  have hwrite : Function.Injective write := fun a b hab =>
    Option.some.inj ((hread a).symm.trans ((congrArg read hab).trans (hread b)))
  have hnames : ((m.toList.map (Prod.map name write)).map (·.1)).Nodup := by
    have hkeys := List.Nodup.map hname m.keys_nodup
    rw [KeyedMap.keys, List.map_map] at hkeys
    rwa [List.map_map]
  have hsorted : ∀ x, x ∈ sortMembers (m.toList.map (Prod.map name write)) ↔
      ∃ e ∈ m.toList, Prod.map name write e = x := by
    intro x
    rw [sortMembers, ← KeyedMap.get?_eq_some_iff _ x.1 x.2, KeyedMap.get?_ofList hnames, List.mem_map]
  -- The members are those of some list of entries, which may stand in another order.
  obtain ⟨es, hes⟩ : sortMembers (m.toList.map (Prod.map name write)) ∈
      Set.range (List.map (Prod.map name write)) := by
    rw [Set.range_list_map]
    intro x hx
    obtain ⟨e, -, he⟩ := (hsorted x).1 hx
    exact ⟨e, he⟩
  have hentry : ∀ e ∈ es, (do
      let k ← key (Prod.map name write e).1
      let v ← read (Prod.map name write e).2
      some (k, v)) = some (id e) := by
    intro e _
    simp only [Prod.map, hkey, hread, Text.bind_of_some, id_eq]
  have hkeys : (es.map (·.1)).Nodup := by
    have hsortedNames := KeyedMap.keys_nodup (KeyedMap.ofList (m.toList.map (Prod.map name write)))
    rw [KeyedMap.keys, ← sortMembers, ← hes, List.map_map] at hsortedNames
    refine List.Nodup.of_map name ?_
    rwa [List.map_map]
  have hentries : ∀ k v, (k, v) ∈ es ↔ (k, v) ∈ m.toList := by
    intro k v
    rw [← List.mem_map_of_injective (hname.prodMap hwrite), hes, hsorted]
    constructor
    · rintro ⟨e, he, heq⟩
      rwa [← hname.prodMap hwrite heq]
    · intro hmem
      exact ⟨(k, v), hmem, rfl⟩
  have hall := Text.mapM_eq_some_map hentry
  rw [List.map_id] at hall
  rw [ofMap, asMap?, ← hes, List.mapM_map, ← KeyedMap.ofList_eq hkeys hentries]
  exact congrArg (Option.map KeyedMap.ofList) hall

theorem plain_ofTextMap {room : Nat} (hwrite : ∀ v, Plain room (write v)) (m : KeyedMap String α) :
    Plain (room + 1) (ofTextMap write m) := ofTextMap_eq write m ▸ plain_ofMap hwrite m

theorem asMap?_ofTextMap {read : Json → Option α} (write : α → Json)
    (hread : ∀ v, read (write v) = some v) (m : KeyedMap String α) :
    asMap? some read (ofTextMap write m) = some m := by
  rw [ofTextMap_eq]
  exact asMap?_ofMap (fun _ => rfl) hread m

/-! ## Records -/

/-- An object with fields of these names, in order, is plain when its fields are. -/
theorem Plain.record {room : Nat} {members : List (String × Json)} (names : List String)
    (hnames : members.map (·.1) = names) (hascending : names.Pairwise fun a b => compare a b = .lt)
    (h : ∀ m ∈ members, Plain room m.2) : Plain (room + 1) (.obj members) := by
  have hmembers : (members.map (·.1)).Pairwise fun a b => compare a b = .lt := hnames ▸ hascending
  exact .obj (List.pairwise_map.1 hmembers) h

/-- Of members with different names, a record keeps those that it knows. -/
theorem ofMembers?_of_nodup {known : List String} {members : List (String × Json)}
    (hnames : (members.map (·.1)).Nodup) :
    Fields.ofMembers? known members = some (members.filter fun m => known.contains m.1) := by
  induction members with
  | nil => rfl
  | cons m rest ih =>
    obtain ⟨name, j⟩ := m
    rw [List.map_cons, List.nodup_cons] at hnames
    rw [Fields.ofMembers?, ih hnames.2, Text.bind_of_some]
    by_cases hknown : known.contains name
    · -- No member that was kept has the name again.
      have hfresh : (rest.filter fun m => known.contains m.1).any (fun f => f.1 == name) = false := by
        rw [List.any_eq_false]
        intro f hf heq
        exact hnames.1 (List.mem_map.2 ⟨f, (List.mem_filter.1 hf).1, eq_of_beq heq⟩)
      rw [if_pos hknown, if_neg (by rw [hfresh]; decide), List.filter_cons_of_pos (by simpa using hknown)]
    · rw [if_neg hknown, List.filter_cons_of_neg (by simpa using hknown)]

theorem ofMembers?_of_known {known : List String} {members : List (String × Json)}
    (hnames : (members.map (·.1)).Nodup) (hknown : ∀ m ∈ members, m.1 ∈ known) :
    Fields.ofMembers? known members = some members := by
  rw [ofMembers?_of_nodup hnames, List.filter_eq_self.2 fun m hm => List.contains_iff_mem.2 (hknown m hm)]

/-- The members of an object as fields. -/
def fields : Json → Fields
  | .obj members => ⟨members⟩
  | _ => ⟨[]⟩

/-- A plain object is read as a record that knows all its members. -/
theorem record?_of_plain {room : Nat} {known : List String} {members : List (String × Json)}
    (h : Plain room (.obj members)) (hknown : ∀ m ∈ members, m.1 ∈ known) :
    record? known (.obj members) = some (fields (.obj members)) := by
  cases h with
  | obj hascending _ =>
    have hnames : (members.map (·.1)).Nodup :=
      List.pairwise_map.2 (hascending.imp fun hlt heq => by simp [heq] at hlt)
    rw [record?, ofMembers?_of_known hnames hknown, Option.map_some, fields]

end Json

open Json Text

/-! ## Instants -/

namespace Instant

theorem plain_toJson (room : Nat) (t : Option Instant) : Plain room (ofOption toJson t) := by
  cases t with
  | none => exact .null
  | some t => exact .str _

theorem ofLooseJson?_toJson (t : Option Instant) :
    asOption? ofLooseJson? (ofOption toJson t) = some t := by
  cases t with
  | none => rfl
  | some t =>
    have hread : ofLooseJson? (.str t.stamp) = some t := by
      rw [ofLooseJson?, asText?, Option.bind_some, t.ofLoose?_stamp]
    simp only [ofOption, toJson, asOption?, hread, Option.map_some]

/-- What a reminder is read back as: one that is too early as none, and one whose year has no
four digits not at all. -/
def reread? : Option Instant → Option (Option Instant)
  | none => some none
  | some t =>
    if 0 ≤ t.year ∧ t.year ≤ 9999 then some (if firstReminderYear ≤ t.year then some t else none)
    else none

theorem reread?_self {r : Option Instant}
    (h : ∀ t, r = some t → firstReminderYear ≤ t.year ∧ t.year ≤ 9999) : reread? r = some r := by
  cases r with
  | none => rfl
  | some t =>
    obtain ⟨hlow, hhigh⟩ := h t rfl
    have hyear : 0 ≤ t.year := Int.le_trans (by decide) hlow
    rw [reread?, if_pos ⟨hyear, hhigh⟩, if_pos hlow]

theorem reminder?_toJson (r : Option Instant) : reminder? (ofOption toJson r) = reread? r := by
  cases r with
  | none => rfl
  | some t =>
    have hblank : ¬ Text.isAllBlank t.stamp = true := by
      rw [t.isAllBlank_stamp]
      decide
    rw [ofOption, toJson, reminder?, if_neg hblank, t.trim_stamp, reread?]
    by_cases hyear : 0 ≤ t.year ∧ t.year ≤ 9999
    · rw [if_pos hyear, t.ofStamp?_stamp hyear.1 hyear.2, Option.map_some]
    · rw [if_neg hyear, t.ofStamp?_stamp_eq_none hyear, Option.map_none]

end Instant

/-! ## Puzzles and rounds -/

theorem Status.ofJson?_toJson (s : Status) : ofJson? s.toJson = some s := by
  cases s <;> rfl

namespace Puzzle

theorem plain_toJson (room : Nat) (p : Puzzle) : Plain (room + 1) p.toJson := by
  refine .record ["answer", "discord_channel", "id", "location", "meta", "name", "note", "puzzle_url",
    "reminder", "round", "spreadsheet_id", "status", "voice_room"] rfl (by decide) ?_
  simp only [List.forall_mem_cons, List.not_mem_nil, false_imp_iff, implies_true, and_true]
  exact ⟨.str _, .str _, plain_ofInt64 _ _, .str _, .bool _, .str _, .str _, .str _,
    Instant.plain_toJson _ _, plain_ofInt64 _ _, .str _, .str _, .str _⟩

/-- A puzzle is read back as it was, but for its reminder. -/
theorem ofJson?_toJson (p : Puzzle) :
    ofJson? p.toJson = (Instant.reread? p.reminder).map fun r => { p with reminder := r } := by
  have hfields : p.toJson.record? fieldNames = some p.toJson.fields :=
    record?_of_plain (p.plain_toJson 0) (by simp [fieldNames])
  have hid : p.toJson.fields.required "id" asPuzzleId? = some p.id := asPuzzleId?_ofPuzzleId p.id
  have hname : p.toJson.fields.required "name" asText? = some p.name := rfl
  have hanswer : p.toJson.fields.orElse "answer" "" asText? = some p.answer := rfl
  have hround : p.toJson.fields.required "round" asRoundId? = some p.round := asRoundId?_ofRoundId p.round
  have hstatus : p.toJson.fields.orElse "status" .notStarted Status.ofJson? = some p.status :=
    p.status.ofJson?_toJson
  have hnote : p.toJson.fields.orElse "note" "" asText? = some p.note := rfl
  have hlocation : p.toJson.fields.orElse "location" "" asText? = some p.location := rfl
  have hpuzzleUrl : p.toJson.fields.orElse "puzzle_url" "" asText? = some p.puzzleUrl := rfl
  have hspreadsheetId : p.toJson.fields.orElse "spreadsheet_id" "" asText? = some p.spreadsheetId := rfl
  have hdiscordChannel : p.toJson.fields.orElse "discord_channel" "" asText? = some p.discordChannel := rfl
  have hmeta : p.toJson.fields.orElse "meta" false asBool? = some p.isMeta := rfl
  have hvoiceRoom : p.toJson.fields.orElse "voice_room" "" asText? = some p.voiceRoom := rfl
  have hreminder : p.toJson.fields.orElse "reminder" none Instant.reminder? = Instant.reread? p.reminder :=
    Instant.reminder?_toJson p.reminder
  rw [ofJson?, bind_eq_of_some hfields, bind_eq_of_some hid, bind_eq_of_some hname,
    bind_eq_of_some hanswer, bind_eq_of_some hround, bind_eq_of_some hstatus, bind_eq_of_some hnote,
    bind_eq_of_some hlocation, bind_eq_of_some hpuzzleUrl, bind_eq_of_some hspreadsheetId,
    bind_eq_of_some hdiscordChannel, bind_eq_of_some hmeta, bind_eq_of_some hvoiceRoom, hreminder]
  cases Instant.reread? p.reminder <;> rfl

end Puzzle

namespace Round

theorem plain_toJson (room : Nat) (r : Round) : Plain (room + 1) r.toJson := by
  refine .record ["emoji", "hue", "id", "name", "sort", "special"] rfl (by decide) ?_
  simp only [List.forall_mem_cons, List.not_mem_nil, false_imp_iff, implies_true, and_true]
  exact ⟨.str _, plain_ofInt64 _ _, plain_ofInt64 _ _, .str _, plain_ofInt64 _ _, .bool _⟩

theorem ofJson?_toJson (r : Round) : ofJson? r.toJson = some r := by
  have hfields : r.toJson.record? ["id", "name", "emoji", "hue", "special", "sort"] = some r.toJson.fields :=
    record?_of_plain (r.plain_toJson 0) (by simp)
  have hid : r.toJson.fields.required "id" asRoundId? = some r.id := asRoundId?_ofRoundId r.id
  have hname : r.toJson.fields.required "name" asText? = some r.name := rfl
  have hemoji : r.toJson.fields.orElse "emoji" "" asText? = some r.emoji := rfl
  have hhue : r.toJson.fields.orElse "hue" 0 asInt64? = some r.hue := asInt64?_ofInt64 r.hue
  have hspecial : r.toJson.fields.orElse "special" false asBool? = some r.special := rfl
  have hsort : r.toJson.fields.orElse "sort" 0 asInt64? = some r.sort := asInt64?_ofInt64 r.sort
  rw [ofJson?, bind_eq_of_some hfields, bind_eq_of_some hid, bind_eq_of_some hname,
    bind_eq_of_some hemoji, bind_eq_of_some hhue, bind_eq_of_some hspecial, bind_eq_of_some hsort]

end Round

/-! ## The whole hunt -/

namespace Settings

theorem plain_toJson (room : Nat) (s : Settings) : Plain (room + 2) s.toJson := by
  have hrooms : Plain (room + 1) (ofTextMap .str s.voiceRooms) := plain_ofTextMap .str s.voiceRooms
  refine .record ["discord_guild", "hanging_out", "hunt_credentials", "hunt_name", "hunt_url",
    "logistics_url", "next_hunt", "voice_rooms"] rfl (by decide) ?_
  simp only [List.forall_mem_cons, List.not_mem_nil, false_imp_iff, implies_true, and_true]
  exact ⟨.str _, .str _, .str _, .str _, .str _, .str _, Instant.plain_toJson _ _, hrooms⟩

theorem ofJson?_toJson (s : Settings) : ofJson? s.toJson = some s := by
  have hfields : s.toJson.record? ["hunt_name", "hunt_url", "hunt_credentials", "logistics_url",
      "discord_guild", "hanging_out", "next_hunt", "voice_rooms"] = some s.toJson.fields :=
    record?_of_plain (s.plain_toJson 0) (by simp)
  have hhuntName : s.toJson.fields.orElse "hunt_name" "" asText? = some s.huntName := rfl
  have hhuntUrl : s.toJson.fields.orElse "hunt_url" "" asText? = some s.huntUrl := rfl
  have hhuntCredentials :
      s.toJson.fields.orElse "hunt_credentials" "" asText? = some s.huntCredentials := rfl
  have hlogisticsUrl : s.toJson.fields.orElse "logistics_url" "" asText? = some s.logisticsUrl := rfl
  have hdiscordGuild : s.toJson.fields.orElse "discord_guild" "" asText? = some s.discordGuild := rfl
  have hhangingOut : s.toJson.fields.orElse "hanging_out" "" asText? = some s.hangingOut := rfl
  have hnextHunt : s.toJson.fields.orElse "next_hunt" none (asOption? Instant.ofLooseJson?) =
      some s.nextHunt := Instant.ofLooseJson?_toJson s.nextHunt
  have hvoiceRooms : s.toJson.fields.orElse "voice_rooms" .empty (asMap? some asText?) =
      some s.voiceRooms := asMap?_ofTextMap .str (fun _ => rfl) s.voiceRooms
  rw [ofJson?, bind_eq_of_some hfields, bind_eq_of_some hhuntName, bind_eq_of_some hhuntUrl,
    bind_eq_of_some hhuntCredentials, bind_eq_of_some hlogisticsUrl, bind_eq_of_some hdiscordGuild,
    bind_eq_of_some hhangingOut, bind_eq_of_some hnextHunt, bind_eq_of_some hvoiceRooms]

end Settings

namespace Presence

theorem plain_toJson (room : Nat) (p : Presence) : Plain (room + 2) (toJson p) :=
  plain_ofMap (fun users => plain_ofTextMap .bool users) p

theorem ofJson?_toJson (p : Presence) : ofJson? (toJson p) = some p := by
  have husers : ∀ users, usersOf? (usersJson users) = some users :=
    asMap?_ofTextMap .bool fun _ => rfl
  exact asMap?_ofMap puzzleKey?_text husers p

end Presence

namespace Users

/-- A hunter's name and picture as they are written. -/
def pairJson (x : String × String) : Json := .arr [.str x.1, .str x.2]

theorem plain_pairJson (room : Nat) (x : String × String) : Plain (room + 1) (pairJson x) := by
  refine .arr ?_
  simp only [List.forall_mem_cons, List.not_mem_nil, false_imp_iff, implies_true, and_true]
  exact ⟨.str _, .str _⟩

theorem plain_toJson (room : Nat) (u : Users) : Plain (room + 3) u.toJson := by
  have husers : Plain (room + 2) (ofTextMap pairJson u.users) :=
    plain_ofTextMap (plain_pairJson room) u.users
  refine .record ["replace", "users"] rfl (by decide) ?_
  simp only [List.forall_mem_cons, List.not_mem_nil, false_imp_iff, implies_true, and_true]
  exact ⟨.bool _, husers⟩

theorem ofJson?_toJson (u : Users) : ofJson? u.toJson = some u := by
  have hfields : u.toJson.record? ["users", "replace"] = some u.toJson.fields :=
    record?_of_plain (u.plain_toJson 0) (by simp)
  have husers : u.toJson.fields.orElse "users" .empty (asMap? some (asPair? asText? asText?)) =
      some u.users := asMap?_ofTextMap pairJson (fun _ => rfl) u.users
  have hreplace : u.toJson.fields.orElse "replace" false asBool? = some u.replace := rfl
  rw [ofJson?, bind_eq_of_some hfields, bind_eq_of_some husers, bind_eq_of_some hreplace]

end Users

end HuntBoard
