-- Which JSON values are changes. A change names one entity, whole if it is put in place and by its
-- id if it is taken away; a reminder written beside a puzzle counts when the puzzle is put in place
-- and the reminder is not too early.
import HuntBoard.Proofs.Frames
import Mathlib.Data.List.Induction
import Mathlib.Data.List.TakeWhile

namespace HuntBoard

open Json Text

/-! ## The last value under a key -/

namespace KeyedMap

variable {κ α : Type} [Ord κ] [Std.LawfulEqOrd κ] [Std.TransOrd κ]

theorem ofList_concat (l : List (κ × α)) (e : κ × α) :
    ofList (l ++ [e]) = (ofList l).insert e.1 e.2 := by
  simp [ofList, List.foldl_append]

/-- A map of a list holds under a key what the list has there last. -/
theorem get?_ofList_last [DecidableEq κ] (l : List (κ × α)) (k : κ) :
    (ofList l).get? k = ((l.filter (·.1 = k)).getLast?).map (·.2) := by
  induction l using List.reverseRecOn with
  | nil => rfl
  | append_singleton l e ih =>
    rw [ofList_concat]
    by_cases hk : e.1 = k
    · subst hk
      simp
    · simp [get?_insert_ne _ _ (Ne.symm hk), ih, hk]

end KeyedMap

namespace Json

/-! ## An id that is carried -/

/-- The id that a value carries: an object under `id`, where the last value counts, and an array
as its only item. -/
def carriedId? : Json → Option Int64
  | .obj members => ((members.filter (·.1 = "id")).getLast?).bind (·.2.asInt64?)
  | .arr [j] => j.asInt64?
  | _ => none

theorem asInt64?_sorted (j : Json) : j.sorted.asInt64? = j.asInt64? := by
  cases j <;> rfl

/-- What is read as the id of a deleted entity is the id that the value carries. -/
theorem deleted?_sorted (j : Json) : WrittenEvent.deleted? j.sorted = carriedId? j := by
  unfold WrittenEvent.deleted?
  cases j with
  | obj members =>
    have hnames : ((sortMembers (sortedMembers members)).map (·.1)).Nodup := KeyedMap.keys_nodup _
    -- The members in order keep the last value under each name.
    have hid : (sortMembers (sortedMembers members)).filter (["id"].contains ·.1) =
        ((((members.filter (·.1 = "id")).getLast?).map (·.2.sorted)).map ("id", ·)).toList := by
      have hfilter : (sortedMembers members).filter (·.1 = "id") =
          (members.filter (·.1 = "id")).map fun m => (m.1, m.2.sorted) := by
        rw [sortedMembers_eq, List.filter_map]
        rfl
      have hlast := KeyedMap.get?_ofList_last (sortedMembers members) "id"
      rw [hfilter, List.getLast?_map, Option.map_map] at hlast
      have hkey := KeyedMap.filter_key (KeyedMap.ofList (sortedMembers members)) "id"
      rw [hlast] at hkey
      simpa [sortMembers, Function.comp_def] using hkey
    rw [sorted, record?, ofMembers?_of_nodup hnames, Option.map_some, Text.bind_of_some, hid, carriedId?]
    cases (members.filter (·.1 = "id")).getLast? with
    | none => rfl
    | some m => exact asInt64?_sorted m.2
  | arr items =>
    rw [sorted, sortedItems_eq]
    rcases items with _ | ⟨j, _ | ⟨k, rest⟩⟩
    · rfl
    · exact asInt64?_sorted j
    · simp [record?, carriedId?]
  | _ => rfl

end Json

/-! ## Reminders -/

theorem Text.trim_of_isAllBlank {s : String} (h : isAllBlank s) : trim s = "" := by
  unfold isAllBlank at h
  unfold trim trimBlanks
  rw [List.dropWhile_eq_nil_iff.2 (List.all_eq_true.1 h)]
  rfl

/-- The instant that a value denotes, whatever its year. -/
def Instant.denoted? : Json → Option Instant
  | .str s => ofStamp? (Text.trim s)
  | _ => none

/-- A reminder that is well formed is the instant that its value denotes, if its year is not too early. -/
theorem Instant.reminder?_eq {j : Json} {r : Option Instant} (h : reminder? j = some r) :
    r = (denoted? j).filter fun t => firstReminderYear ≤ t.year := by
  cases j with
  | null =>
    obtain rfl := Option.some.inj h
    rfl
  | str s =>
    rw [reminder?] at h
    rw [denoted?]
    split at h
    · next hblank =>
      obtain rfl := Option.some.inj h
      rw [Text.trim_of_isAllBlank hblank]
      rfl
    · obtain ⟨t, ht, rfl⟩ := Option.map_eq_some_iff.1 h
      rw [ht, Option.filter_some]
      simp
  | _ => cases h

/-! ## Changes as they stand on the wire -/

/-- A change on the wire: its entities and the reminder beside them are values that nobody has
looked into. -/
structure RawEvent where
  changeId : ChangeId
  kind : ChangeKind
  puzzle : Option Json := none
  round : Option Json := none
  reminderFix : Option Json := none

namespace RawEvent

/-- A value that is `null` is as good as none. -/
def present : Option Json → Option Json
  | some .null => none
  | v => v

/-- A JSON value stands for a change on the wire: it has its members, in whatever order and among
others, or its items. -/
structure StandsIn (r : RawEvent) (j : Json) : Prop where
  fields : ∃ fs, j.record? ["change_id", "kind", "puzzle", "round", "reminder_fix"] = some fs ∧
    fs.required "change_id" asChangeId? = some r.changeId ∧
    fs.required "kind" ChangeKind.ofJson? = some r.kind ∧
    fs.field? "puzzle" = r.puzzle ∧ fs.field? "round" = r.round ∧
    fs.field? "reminder_fix" = r.reminderFix

/-- A change as an object, with the members that it has. -/
def toJson (r : RawEvent) : Json :=
  .obj ([("change_id", ofChangeId r.changeId), ("kind", .str r.kind.wire)] ++
    (r.puzzle.map ("puzzle", ·)).toList ++ (r.round.map ("round", ·)).toList ++
    (r.reminderFix.map ("reminder_fix", ·)).toList)

/-- Every change stands in some value. -/
theorem standsIn_toJson (r : RawEvent) : r.StandsIn r.toJson := by
  obtain ⟨c, kind, puzzle, round, fix⟩ := r
  have hchangeId : asChangeId? (ofChangeId c) = some c := asChangeId?_ofChangeId c
  have hkind : ChangeKind.ofJson? (.str kind.wire) = some kind := by cases kind <;> rfl
  cases puzzle <;> cases round <;> cases fix <;> exact ⟨_, rfl, hchangeId, hkind, rfl, rfl, rfl⟩

/-- All that the values hold can be read, and the reminder is well formed. -/
structure Sound (r : RawEvent) : Prop where
  puzzle : ∀ v, r.puzzle = some v → v.readable
  round : ∀ v, r.round = some v → v.readable
  reminderFix : ∀ v, r.reminderFix = some v → (Instant.reminder? v).isSome

/-- The instant of the reminder beside the entities, unless it is too early. -/
def fix? (r : RawEvent) : Option Instant :=
  (r.reminderFix.bind Instant.denoted?).filter fun t => firstReminderYear ≤ t.year

/-- A value has not the form that its kind of change asks for: a whole entity, or an id. -/
def lacks (r : RawEvent) {α : Type} (read : Json → Option α) (v : Json) : Prop :=
  match r.kind with
  | .upsert => read v.sorted = none
  | .delete => carriedId? v = none

variable {r : RawEvent} {j : Json}

theorem written?_of_standsIn (hr : r.Sound) (h : r.StandsIn j) :
    WrittenEvent.ofJson? j =
      some { changeId := r.changeId, kind := r.kind, puzzle := (present r.puzzle).map sorted,
             round := (present r.round).map sorted, reminderFix := r.fix? } := by
  obtain ⟨fs, hfs, hchangeId, hkind, hpuzzle, hround, hfix⟩ := h.fields
  -- An entity is kept as it stands, with its members in order.
  have hkept : ∀ {name : String} {v : Option Json}, fs.field? name = v → (∀ w, v = some w → w.readable) →
      fs.orElse name none (asOption? WrittenEvent.kept?) = some ((present v).map sorted) := by
    intro name v hv hreadable
    unfold Fields.orElse
    rw [hv]
    rcases v with _ | w
    · rfl
    · have hw := hreadable w rfl
      cases w <;> simp_all [asOption?, WrittenEvent.kept?, present]
  have hreminder : fs.orElse "reminder_fix" none Instant.reminder? = some r.fix? := by
    unfold Fields.orElse fix?
    rw [hfix]
    cases hv : r.reminderFix with
    | none => rfl
    | some v =>
      obtain ⟨t, ht⟩ := Option.isSome_iff_exists.1 (hr.reminderFix v hv)
      rw [Option.bind_some, ← Instant.reminder?_eq ht]
      exact ht
  rw [WrittenEvent.ofJson?, bind_eq_of_some hfs, bind_eq_of_some hchangeId, bind_eq_of_some hkind,
    bind_eq_of_some (hkept hpuzzle hr.puzzle), bind_eq_of_some (hkept hround hr.round),
    bind_eq_of_some hreminder]

/-- What a change on the wire is read as. -/
def verdict (r : RawEvent) : Except EventFault SyncEvent :=
  match r.kind, present r.puzzle, present r.round with
  | _, none, none => .error (.noEntity r.changeId)
  | _, some _, some _ => .error (.twoEntities r.changeId)
  | .upsert, some v, none =>
    match Puzzle.ofJson? v.sorted with
    | some p => .ok ⟨r.changeId, .upsertPuzzle { p with reminder := r.fix?.or p.reminder }⟩
    | none => .error (.badPuzzle r.changeId)
  | .upsert, none, some v =>
    match Round.ofJson? v.sorted with
    | some q => .ok ⟨r.changeId, .upsertRound q⟩
    | none => .error (.badRound r.changeId)
  | .delete, some v, none =>
    match carriedId? v with
    | some id => .ok ⟨r.changeId, .deletePuzzle ⟨id⟩⟩
    | none => .error (.badPuzzle r.changeId)
  | .delete, none, some v =>
    match carriedId? v with
    | some id => .ok ⟨r.changeId, .deleteRound ⟨id⟩⟩
    | none => .error (.badRound r.changeId)

theorem ofJson_of_standsIn (hr : r.Sound) (h : r.StandsIn j) :
    SyncEvent.ofJson j = r.verdict.mapError .event := by
  rw [SyncEvent.ofJson_of_written (written?_of_standsIn hr h)]
  congr 1
  unfold WrittenEvent.event WrittenEvent.change verdict
  obtain ⟨c, kind, puzzle, round, fix⟩ := r
  cases hp : present puzzle with
  | none =>
    cases hq : present round with
    | none => cases kind <;> rfl
    | some v =>
      cases kind with
      | upsert =>
        simp only [Option.map_none, Option.map_some]
        cases Round.ofJson? v.sorted <;> rfl
      | delete =>
        simp only [Option.map_none, Option.map_some, deleted?_sorted]
        cases carriedId? v <;> rfl
  | some v =>
    cases hq : present round with
    | some w => cases kind <;> rfl
    | none =>
      cases kind with
      | upsert =>
        simp only [Option.map_none, Option.map_some]
        cases Puzzle.ofJson? v.sorted with
        | none => rfl
        | some p =>
          cases hfix : fix? ⟨c, .upsert, puzzle, round, fix⟩ <;> simp [WrittenEvent.fixReminder, Except.map]
      | delete =>
        simp only [Option.map_none, Option.map_some, deleted?_sorted]
        cases carriedId? v <;> rfl

/-- A change is refused for the number of its entities, or for the form of the only one. -/
theorem verdict_eq_error (r : RawEvent) (f : EventFault) :
    r.verdict = .error f ↔
      (f = .noEntity r.changeId ∧ present r.puzzle = none ∧ present r.round = none) ∨
      (f = .twoEntities r.changeId ∧ (present r.puzzle).isSome ∧ (present r.round).isSome) ∨
      (f = .badPuzzle r.changeId ∧
        ∃ v, present r.puzzle = some v ∧ present r.round = none ∧ r.lacks Puzzle.ofJson? v) ∨
      (f = .badRound r.changeId ∧
        ∃ v, present r.puzzle = none ∧ present r.round = some v ∧ r.lacks Round.ofJson? v) := by
  unfold verdict lacks
  cases present r.puzzle with
  | none =>
    cases present r.round with
    | none => simp [@eq_comm _ f]
    | some v =>
      cases r.kind with
      | upsert => cases h : Round.ofJson? v.sorted <;> simp [h, @eq_comm _ f]
      | delete => cases h : carriedId? v <;> simp [h, @eq_comm _ f]
  | some v =>
    cases present r.round with
    | some w => simp [@eq_comm _ f]
    | none =>
      cases r.kind with
      | upsert => cases h : Puzzle.ofJson? v.sorted <;> simp [h, @eq_comm _ f]
      | delete => cases h : carriedId? v <;> simp [h, @eq_comm _ f]

/-- A change that is taken keeps its number, its kind and the type of its entity. -/
theorem verdict_eq_ok {e : SyncEvent} (h : r.verdict = .ok e) :
    e.changeId = r.changeId ∧ e.change.kind = r.kind ∧
      e.change.entityType = if (present r.puzzle).isSome then .puzzle else .round := by
  unfold verdict at h
  split at h
  · cases h
  · cases h
  all_goals
    split at h
    · obtain rfl := Except.ok.inj h
      simp [Change.kind, Change.entityType, *]
    · cases h

/-- Without the reminder beside a puzzle that is put in place, nothing else changes. -/
theorem verdict_without_reminder
    (h : r.kind = .upsert → (present r.puzzle).isSome → r.fix? = none) :
    verdict { r with reminderFix := none } = r.verdict := by
  have hnone : fix? { r with reminderFix := none } = none := by simp [fix?]
  unfold verdict
  simp only [hnone]
  cases hpuzzle : present r.puzzle with
  | none => cases r.kind <;> cases present r.round <;> rfl
  | some v =>
    cases hkind : r.kind with
    | delete => cases present r.round <;> rfl
    | upsert => simp [h hkind (by simp [hpuzzle])]

/-- A change that names no entity, or two, is refused for that, whatever they hold. One that names
a single entity is refused exactly when that is not whole, if it is to be put in place, or carries
no id, if it is to be taken away. Any other is taken under its number, with its kind and for the
entity that it names; of an entity that is taken away only the id counts. A reminder beside a puzzle
that is put in place takes the place of its own unless it is too early, and never counts else. -/
theorem one_entity_of_its_form_makes_a_change {r : RawEvent} {j : Json} (hr : r.Sound)
    (h : r.StandsIn j) :
    let e := SyncEvent.ofJson j
    let puzzle := present r.puzzle
    let round := present r.round
    (e = .error (.event (.noEntity r.changeId)) ↔ puzzle = none ∧ round = none) ∧
    (e = .error (.event (.twoEntities r.changeId)) ↔ puzzle.isSome ∧ round.isSome) ∧
    (e = .error (.event (.badPuzzle r.changeId)) ↔
      ∃ v, puzzle = some v ∧ round = none ∧ r.lacks Puzzle.ofJson? v) ∧
    (e = .error (.event (.badRound r.changeId)) ↔
      ∃ v, puzzle = none ∧ round = some v ∧ r.lacks Round.ofJson? v) ∧
    (∀ f, e = .error f → f ∈ [.event (.noEntity r.changeId), .event (.twoEntities r.changeId),
      .event (.badPuzzle r.changeId), .event (.badRound r.changeId)]) ∧
    (∀ e', e = .ok e' → e'.changeId = r.changeId ∧ e'.change.kind = r.kind ∧
      e'.change.entityType = if puzzle.isSome then .puzzle else .round) ∧
    (r.kind = .delete → ∀ v id, carriedId? v = some id →
      (puzzle = some v → round = none → e = .ok ⟨r.changeId, .deletePuzzle ⟨id⟩⟩) ∧
      (puzzle = none → round = some v → e = .ok ⟨r.changeId, .deleteRound ⟨id⟩⟩)) ∧
    (r.kind = .upsert → round = none → ∀ v p, puzzle = some v → Puzzle.ofJson? v.sorted = some p →
      e = .ok ⟨r.changeId, .upsertPuzzle { p with reminder := r.fix?.or p.reminder }⟩) ∧
    (r.kind = .upsert → puzzle = none → ∀ v q, round = some v → Round.ofJson? v.sorted = some q →
      e = .ok ⟨r.changeId, .upsertRound q⟩) ∧
    ∀ j', StandsIn { r with reminderFix := none } j' →
      (r.kind = .upsert → puzzle.isSome → r.fix? = none) → SyncEvent.ofJson j' = e := by
  intro e puzzle round
  have he : e = r.verdict.mapError .event := ofJson_of_standsIn hr h
  have hrefused (f : EventFault) : e = .error (.event f) ↔ r.verdict = .error f := by
    rw [he]
    cases r.verdict <;> simp [Except.mapError]
  refine ⟨?_, ?_, ?_, ?_, ?_, ?_, ?_, ?_, ?_, ?_⟩
  · simp [hrefused, verdict_eq_error, puzzle, round]
  · simp [hrefused, verdict_eq_error, puzzle, round]
  · simp [hrefused, verdict_eq_error, puzzle, round]
  · simp [hrefused, verdict_eq_error, puzzle, round]
  · intro f hf
    rw [he] at hf
    cases hv : r.verdict with
    | ok e' => simp [hv, Except.mapError] at hf
    | error f' =>
      have hcases := (verdict_eq_error r f').1 hv
      simp only [hv, Except.mapError, Except.error.injEq] at hf
      subst hf
      simp only [List.mem_cons, ReadFault.event.injEq, List.not_mem_nil, or_false]
      tauto
  · intro e' he'
    rw [he] at he'
    cases hv : r.verdict with
    | ok e'' =>
      obtain rfl : e'' = e' := by simpa [hv, Except.mapError] using he'
      exact verdict_eq_ok hv
    | error f => simp [hv, Except.mapError] at he'
  · intro hkind v id hid
    constructor
    · intro hp hq
      simp [he, verdict, hkind, show present r.puzzle = some v from hp, show present r.round = none from hq,
        hid, Except.mapError]
    · intro hp hq
      simp [he, verdict, hkind, show present r.puzzle = none from hp, show present r.round = some v from hq,
        hid, Except.mapError]
  · intro hkind hq v p hp hread
    simp [he, verdict, hkind, show present r.puzzle = some v from hp, show present r.round = none from hq,
      hread, Except.mapError]
  · intro hkind hp v q hq hread
    simp [he, verdict, hkind, show present r.puzzle = none from hp, show present r.round = some v from hq,
      hread, Except.mapError]
  · intro j' hj' hfix
    have hsound : Sound { r with reminderFix := none } := ⟨hr.puzzle, hr.round, by simp⟩
    rw [ofJson_of_standsIn hsound hj', verdict_without_reminder hfix, he]

/-- A puzzle that is put in place, with a reminder beside it. -/
def freshFish (fix : String) : RawEvent where
  changeId := ⟨3⟩
  kind := .upsert
  puzzle := some (.obj [("round", .int 1), ("id", .int 1), ("name", .str "Fish")])
  round := some .null
  reminderFix := some (.str fix)

theorem sound_freshFish {fix : String} (h : (Instant.reminder? (.str fix)).isSome) :
    (freshFish fix).Sound := by
  constructor <;> simp [freshFish, readable, membersReadable, h]

theorem a_reminder_beside_a_puzzle_counts_from_2000_on :
    SyncEvent.ofJson (freshFish "2026-01-01T00:00:00Z").toJson =
        .ok ⟨⟨3⟩, .upsertPuzzle { id := ⟨1⟩, name := "Fish", round := ⟨1⟩,
                                  reminder := some (LiveMessage.newYear 2026 (by decide) 0 0) }⟩ ∧
      SyncEvent.ofJson (freshFish "1999-12-31T23:59:59Z").toJson =
        .ok ⟨⟨3⟩, .upsertPuzzle { id := ⟨1⟩, name := "Fish", round := ⟨1⟩ }⟩ := by
  have hlate : (freshFish "2026-01-01T00:00:00Z").fix? = some (LiveMessage.newYear 2026 (by decide) 0 0) := by
    decide +kernel
  have hearly : (freshFish "1999-12-31T23:59:59Z").fix? = none := by decide +kernel
  constructor
  · obtain ⟨-, -, -, -, -, -, -, hput, -⟩ := one_entity_of_its_form_makes_a_change
      (sound_freshFish (by decide +kernel)) (standsIn_toJson (freshFish "2026-01-01T00:00:00Z"))
    have h := hput rfl rfl _ { id := ⟨1⟩, name := "Fish", round := ⟨1⟩ } rfl (by decide +kernel)
    rwa [hlate] at h
  · obtain ⟨-, -, -, -, -, -, -, hput, -⟩ := one_entity_of_its_form_makes_a_change
      (sound_freshFish (by decide +kernel)) (standsIn_toJson (freshFish "1999-12-31T23:59:59Z"))
    have h := hput rfl rfl _ { id := ⟨1⟩, name := "Fish", round := ⟨1⟩ } rfl (by decide +kernel)
    rwa [hearly] at h

end RawEvent

end HuntBoard
