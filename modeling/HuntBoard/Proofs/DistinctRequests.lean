-- No two writes look the same to the server: method, path and form say all there is to a write.
-- A field that is set to nothing is there in the form, and one that is not set is not.
import HuntBoard.Proofs.WireForms
import HuntBoard.Write.Request

namespace HuntBoard

/-! ## Fields of a form -/

namespace Form

/-- The form of the fields that are set. -/
def ofFields (fs : List (String × Option String)) : Form := fs.flatMap fun f => field f.1 id f.2

theorem field_eq {α : Type} (name : String) (write : α → String) (v : Option α) :
    field name write v = field name id (v.map write) := by
  cases v <;> rfl

theorem ofFields_cons_none (name : String) (fs : List (String × Option String)) :
    ofFields ((name, none) :: fs) = ofFields fs := rfl

theorem ofFields_cons_some (name v : String) (fs : List (String × Option String)) :
    ofFields ((name, some v) :: fs) = (name, v) :: ofFields fs := rfl

theorem name_mem_of_mem_ofFields {fs : List (String × Option String)} {x : String × String}
    (h : x ∈ ofFields fs) : x.1 ∈ fs.map (·.1) := by
  obtain ⟨⟨name, v⟩, hf, hx⟩ := List.mem_flatMap.1 h
  cases v with
  | none => cases hx
  | some v =>
    obtain rfl := List.mem_singleton.1 hx
    exact List.mem_map.2 ⟨_, hf, rfl⟩

/-- When no name comes twice, a form tells which fields are set, and to what. -/
theorem eq_of_ofFields_eq {fs gs : List (String × Option String)}
    (hnames : fs.map (·.1) = gs.map (·.1)) (hnodup : (fs.map (·.1)).Nodup)
    (h : ofFields fs = ofFields gs) : fs = gs := by
  induction fs generalizing gs with
  | nil =>
    cases gs with
    | nil => rfl
    | cons g gs => cases hnames
  | cons f fs ih =>
    cases gs with
    | nil => cases hnames
    | cons g gs =>
      obtain ⟨name, v⟩ := f
      obtain ⟨name', w⟩ := g
      obtain ⟨hname, hrest⟩ := List.cons.inj hnames
      obtain rfl : name = name' := hname
      obtain ⟨hnew, hlater⟩ := List.nodup_cons.1 hnodup
      -- A field that one of the forms lacks would have to come later in the other.
      cases v with
      | none =>
        cases w with
        | none => exact congrArg _ (ih hrest hlater h)
        | some w =>
          rw [ofFields_cons_none, ofFields_cons_some] at h
          have hmem : (name, w) ∈ ofFields fs := h ▸ List.mem_cons_self ..
          exact absurd (name_mem_of_mem_ofFields hmem) hnew
      | some v =>
        cases w with
        | none =>
          rw [ofFields_cons_none, ofFields_cons_some] at h
          have hmem : (name, v) ∈ ofFields gs := h ▸ List.mem_cons_self ..
          exact absurd (hrest ▸ name_mem_of_mem_ofFields hmem) hnew
        | some w =>
          obtain ⟨hvalue, hforms⟩ := List.cons.inj h
          obtain rfl : v = w := (Prod.mk.inj hvalue).2
          exact congrArg _ (ih hrest hlater hforms)

theorem boolText_injective : Function.Injective boolText := by
  intro a b h
  cases a <;> cases b <;> first | rfl | (simp [boolText] at h)

end Form

/-! ## Printed values -/

theorem int64Text_injective : Function.Injective int64Text := by
  intro a b h
  have hback : Json.intKey? (int64Text a) = Json.intKey? (int64Text b) := congrArg _ h
  rw [int64Text, int64Text, Json.intKey?_toString, Json.intKey?_toString] at hback
  exact Int64.toInt_inj.1 (Option.some.inj hback)

theorem RoundId.text_injective : Function.Injective text := by
  intro a b h
  obtain ⟨a⟩ := a
  obtain ⟨b⟩ := b
  exact congrArg mk (int64Text_injective h)

theorem Status.wire_injective : Function.Injective wire := by
  intro a b h
  have hback : ofJson? (.str a.wire) = ofJson? (.str b.wire) := congrArg _ (congrArg _ h)
  have ha := a.ofJson?_toJson
  have hb := b.ofJson?_toJson
  rw [toJson] at ha hb
  rw [ha, hb] at hback
  exact Option.some.inj hback

namespace Instant

/-- In a form an instant ends in another zone than in a message, and says no less. -/
theorem formStamp_injective : Function.Injective formStamp := by
  intro a b h
  have htext : a.stampText = b.stampText := List.append_cancel_right (String.ofList_injective h)
  have hstamp : a.stamp = b.stamp := by rw [stamp, stamp, htext]
  have hback : ofLoose? a.stamp = ofLoose? b.stamp := congrArg _ hstamp
  rw [a.ofLoose?_stamp, b.ofLoose?_stamp] at hback
  exact Option.some.inj hback

theorem formStamp_ne_empty (t : Instant) : t.formStamp ≠ "" := by
  intro h
  have hlist : t.stampText ++ ['+', '0', '0', ':', '0', '0'] = [] := String.ofList_injective h
  simp at hlist

/-- A reminder in a form: the empty text takes it away. -/
theorem reminderText_injective :
    Function.Injective fun r : Option Instant => (r.map formStamp).getD "" := by
  intro r s h
  cases r with
  | none =>
    cases s with
    | none => rfl
    | some t => exact absurd h.symm t.formStamp_ne_empty
  | some t =>
    cases s with
    | none => exact absurd h t.formStamp_ne_empty
    | some u => exact congrArg some (formStamp_injective h)

end Instant

/-! ## Forms -/

theorem NewPuzzle.form_injective : Function.Injective form := by
  intro a b h
  obtain ⟨name, round, puzzleUrl⟩ := a
  obtain ⟨name', round', puzzleUrl'⟩ := b
  simp only [form, List.cons.injEq, Prod.mk.injEq, true_and, and_true] at h
  obtain ⟨rfl, hround, rfl⟩ := h
  rw [RoundId.text_injective hround]

theorem NewRound.form_injective : Function.Injective form := by
  intro a b h
  obtain ⟨name, emoji, hue, sort, special⟩ := a
  obtain ⟨name', emoji', hue', sort', special'⟩ := b
  simp only [form, List.cons.injEq, Prod.mk.injEq, true_and, and_true] at h
  obtain ⟨rfl, rfl, hhue, hsort, hspecial⟩ := h
  rw [int64Text_injective hhue, int64Text_injective hsort, Form.boolText_injective hspecial]

namespace PuzzlePatch

/-- All fields of a patch by their names, those that are set with their values. -/
def fields (p : PuzzlePatch) : List (String × Option String) :=
  [("name", p.name), ("answer", p.answer), ("round", p.round.map RoundId.text),
    ("status", p.status.map Status.wire), ("note", p.note), ("location", p.location),
    ("puzzle_url", p.puzzleUrl), ("spreadsheet_id", p.spreadsheetId),
    ("discord_channel", p.discordChannel), ("meta", p.isMeta.map Form.boolText),
    ("voice_room", p.voiceRoom), ("reminder", p.reminder.map fun r => (r.map Instant.formStamp).getD "")]

theorem form_eq (p : PuzzlePatch) : p.form = Form.ofFields p.fields := by
  rw [form, Form.field_eq "round", Form.field_eq "status", Form.field_eq "meta", Form.field_eq "reminder"]
  simp only [Form.ofFields, fields, List.flatMap_cons, List.flatMap_nil, List.append_nil, List.append_assoc]

theorem fields_injective : Function.Injective fields := by
  intro p q h
  cases p
  cases q
  simp only [fields, List.cons.injEq, Prod.mk.injEq, true_and, and_true] at h
  obtain ⟨rfl, rfl, hround, hstatus, rfl, rfl, rfl, rfl, rfl, hmeta, rfl, hreminder⟩ := h
  rw [Option.map_injective RoundId.text_injective hround,
    Option.map_injective Status.wire_injective hstatus,
    Option.map_injective Form.boolText_injective hmeta,
    Option.map_injective Instant.reminderText_injective hreminder]

/-- No two fields of a patch have the same name. -/
theorem fields_names_nodup (p : PuzzlePatch) : (p.fields.map (·.1)).Nodup := by
  change ["name", "answer", "round", "status", "note", "location", "puzzle_url", "spreadsheet_id",
    "discord_channel", "meta", "voice_room", "reminder"].Nodup
  decide

theorem form_injective : Function.Injective form := by
  intro p q h
  rw [form_eq, form_eq] at h
  exact fields_injective (Form.eq_of_ofFields_eq rfl p.fields_names_nodup h)

end PuzzlePatch

namespace RoundPatch

/-- All fields of a patch by their names, those that are set with their values. -/
def fields (p : RoundPatch) : List (String × Option String) :=
  [("name", p.name), ("emoji", p.emoji), ("hue", p.hue.map int64Text),
    ("special", p.special.map Form.boolText), ("sort", p.sort.map int64Text)]

theorem form_eq (p : RoundPatch) : p.form = Form.ofFields p.fields := by
  rw [form, Form.field_eq "hue", Form.field_eq "special", Form.field_eq "sort"]
  simp only [Form.ofFields, fields, List.flatMap_cons, List.flatMap_nil, List.append_nil, List.append_assoc]

theorem fields_injective : Function.Injective fields := by
  intro p q h
  cases p
  cases q
  simp only [fields, List.cons.injEq, Prod.mk.injEq, true_and, and_true] at h
  obtain ⟨rfl, rfl, hhue, hspecial, hsort⟩ := h
  rw [Option.map_injective int64Text_injective hhue,
    Option.map_injective Form.boolText_injective hspecial,
    Option.map_injective int64Text_injective hsort]

/-- No two fields of a patch have the same name. -/
theorem fields_names_nodup (p : RoundPatch) : (p.fields.map (·.1)).Nodup := by
  change ["name", "emoji", "hue", "special", "sort"].Nodup
  decide

theorem form_injective : Function.Injective form := by
  intro p q h
  rw [form_eq, form_eq] at h
  exact fields_injective (Form.eq_of_ofFields_eq rfl p.fields_names_nodup h)

end RoundPatch

/-! ## Requests -/

namespace WriteRequest

/-- What a write is about: the entities of a type, or one of them by its id. -/
def target : WriteRequest → EntityType × Option Int64
  | createPuzzle _ => (.puzzle, none)
  | updatePuzzle id _ | deletePuzzle id => (.puzzle, some id.val)
  | createRound _ => (.round, none)
  | updateRound id _ | deleteRound id => (.round, some id.val)

/-- The path to the entities of a type. -/
def stem : EntityType → String
  | .puzzle => "/puzzles"
  | .round => "/rounds"

/-- The path from there to one of them. -/
def branch : Option Int64 → String
  | none => ""
  | some id => "/" ++ int64Text id

theorem path_eq (w : WriteRequest) : w.path = stem w.target.1 ++ branch w.target.2 := by
  cases w with
  | createPuzzle p => rfl
  | updatePuzzle id patch => exact (String.append_assoc : "/puzzles" ++ "/" ++ id.text = _)
  | deletePuzzle id => exact (String.append_assoc : "/puzzles" ++ "/" ++ id.text = _)
  | createRound r => rfl
  | updateRound id patch => exact (String.append_assoc : "/rounds" ++ "/" ++ id.text = _)
  | deleteRound id => exact (String.append_assoc : "/rounds" ++ "/" ++ id.text = _)

theorem stem_append_inj {a b : EntityType} {s t : String} (h : stem a ++ s = stem b ++ t) :
    a = b ∧ s = t := by
  have hlist : (stem a ++ s).toList = (stem b ++ t).toList := congrArg _ h
  cases a with
  | puzzle =>
    cases b with
    | puzzle => exact ⟨rfl, (String.append_right_inj _).1 h⟩
    | round => simp [stem, String.toList_append] at hlist
  | round =>
    cases b with
    | puzzle => simp [stem, String.toList_append] at hlist
    | round => exact ⟨rfl, (String.append_right_inj _).1 h⟩

theorem branch_injective : Function.Injective branch := by
  have hsome : ∀ id, branch (some id) ≠ "" := by
    intro id h
    have hlist : (branch (some id)).toList = [] := congrArg _ h
    simp [branch, String.toList_append] at hlist
  intro a b h
  cases a with
  | none =>
    cases b with
    | none => rfl
    | some id => exact absurd h.symm (hsome id)
  | some id =>
    cases b with
    | none => exact absurd h (hsome id)
    | some id' => rw [int64Text_injective ((String.append_right_inj _).1 h)]

theorem target_of_path {a b : WriteRequest} (h : a.path = b.path) : a.target = b.target := by
  rw [path_eq, path_eq] at h
  obtain ⟨htype, hid⟩ := stem_append_inj h
  exact Prod.ext htype (branch_injective hid)

/-- A write is told from all others by its method, its path and its form: what it is about, what
is done there, and for each field whether it is set and to what. -/
theorem distinct_writes_are_distinct_requests (a b : WriteRequest) :
    a.method = b.method ∧ a.path = b.path ∧ a.form = b.form ↔ a = b := by
  constructor
  · rintro ⟨hmethod, hpath, hform⟩
    have htarget := target_of_path hpath
    cases a with
    | createPuzzle p =>
      cases b with
      | createPuzzle p' => exact congrArg _ (NewPuzzle.form_injective hform)
      | _ => cases htarget
    | updatePuzzle id patch =>
      cases b with
      | updatePuzzle id' patch' =>
        obtain ⟨id⟩ := id
        cases htarget
        exact congrArg _ (PuzzlePatch.form_injective hform)
      | deletePuzzle => cases hmethod
      | _ => cases htarget
    | deletePuzzle id =>
      cases b with
      | deletePuzzle id' =>
        obtain ⟨id⟩ := id
        cases htarget
        rfl
      | updatePuzzle => cases hmethod
      | _ => cases htarget
    | createRound r =>
      cases b with
      | createRound r' => exact congrArg _ (NewRound.form_injective hform)
      | _ => cases htarget
    | updateRound id patch =>
      cases b with
      | updateRound id' patch' =>
        obtain ⟨id⟩ := id
        cases htarget
        exact congrArg _ (RoundPatch.form_injective hform)
      | deleteRound => cases hmethod
      | _ => cases htarget
    | deleteRound id =>
      cases b with
      | deleteRound id' =>
        obtain ⟨id⟩ := id
        cases htarget
        rfl
      | updateRound => cases hmethod
      | _ => cases htarget
  · rintro rfl
    exact ⟨rfl, rfl, rfl⟩

end WriteRequest

end HuntBoard
