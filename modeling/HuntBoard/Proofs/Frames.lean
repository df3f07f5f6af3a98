-- A frame that is written reads back as its message, unless the reminder of a puzzle stands in
-- the way: one before the year 2000 is read as none, and one in a year that has no four digits
-- is not read at all.
import HuntBoard.LiveMessage
import HuntBoard.Proofs.WireForms

namespace HuntBoard

open Json Text

/-! ## Changes -/

namespace Change

/-- The reminder of the puzzle that a change puts in place. -/
def reminder? : Change → Option Instant
  | upsertPuzzle p => p.reminder
  | _ => none

/-- A change with another reminder, if it can have one. -/
def withReminder (r : Option Instant) : Change → Change
  | upsertPuzzle p => upsertPuzzle { p with reminder := r }
  | c => c

theorem withReminder_self (c : Change) : c.withReminder c.reminder? = c := by
  cases c <;> rfl

end Change

theorem ChangeKind.ofJson?_wire (k : ChangeKind) : ofJson? (.str k.wire) = some k := by
  cases k <;> rfl

/-- A plain value is kept as it is. -/
theorem WrittenEvent.kept?_of_plain {room : Nat} {j : Json} (h : Plain room j) : kept? j = some j := by
  rw [kept?, if_pos h.readable, h.sorted]

/-- The id of a deleted entity is read back. -/
theorem WrittenEvent.deleted?_ofInt64 (n : Int64) : deleted? (.obj [("id", ofInt64 n)]) = some n := by
  have hplain : Plain 1 (.obj [("id", ofInt64 n)]) :=
    .record ["id"] rfl (by decide) (List.forall_mem_singleton.2 (plain_ofInt64 0 n))
  have hfields : record? ["id"] (.obj [("id", ofInt64 n)]) = some (fields (.obj [("id", ofInt64 n)])) :=
    record?_of_plain hplain (by simp)
  rw [deleted?, bind_eq_of_some hfields]
  exact asInt64?_ofInt64 n

namespace SyncEvent

theorem plain_entityMember (room : Nat) (c : Change) : Plain (room + 1) (entityMember c).2 := by
  have hdeleted : ∀ n : Int64, Plain (room + 1) (.obj [("id", ofInt64 n)]) := fun n =>
    .record ["id"] rfl (by decide) (List.forall_mem_singleton.2 (plain_ofInt64 room n))
  cases c with
  | upsertPuzzle p => exact p.plain_toJson room
  | deletePuzzle id => exact hdeleted id.val
  | upsertRound r => exact r.plain_toJson room
  | deleteRound id => exact hdeleted id.val

theorem plain_toJson (room : Nat) (e : SyncEvent) : Plain (room + 2) e.toJson := by
  have hmembers : ∀ m ∈ [("change_id", ofChangeId e.changeId), ("kind", .str e.change.kind.wire),
      entityMember e.change], Plain (room + 1) m.2 := by
    simp only [List.forall_mem_cons, List.not_mem_nil, false_imp_iff, implies_true, and_true]
    exact ⟨plain_ofUInt64 _ _, .str _, plain_entityMember room e.change⟩
  match e, hmembers with
  | ⟨_, .upsertPuzzle _⟩, h | ⟨_, .deletePuzzle _⟩, h =>
    exact .record ["change_id", "kind", "puzzle"] rfl (by decide) h
  | ⟨_, .upsertRound _⟩, h | ⟨_, .deleteRound _⟩, h =>
    exact .record ["change_id", "kind", "round"] rfl (by decide) h

/-- What stands under `puzzle` in a written change. -/
def puzzleMember? (c : Change) : Option Json :=
  match c.entityType with
  | .puzzle => some (entityMember c).2
  | .round => none

/-- What stands under `round` in a written change. -/
def roundMember? (c : Change) : Option Json :=
  match c.entityType with
  | .puzzle => none
  | .round => some (entityMember c).2

theorem written?_toJson (e : SyncEvent) :
    WrittenEvent.ofJson? e.toJson =
      some { changeId := e.changeId, kind := e.change.kind, puzzle := puzzleMember? e.change,
             round := roundMember? e.change } := by
  have hfields : e.toJson.record? ["change_id", "kind", "puzzle", "round", "reminder_fix"] =
      some e.toJson.fields := by
    refine record?_of_plain (e.plain_toJson 0) ?_
    rcases e with ⟨_, _ | _ | _ | _⟩ <;> simp [entityMember]
  have hkept : WrittenEvent.kept? (entityMember e.change).2 = some (entityMember e.change).2 :=
    WrittenEvent.kept?_of_plain (plain_entityMember 0 e.change)
  have hchangeId : e.toJson.fields.required "change_id" asChangeId? = some e.changeId :=
    asChangeId?_ofChangeId e.changeId
  have hkind : e.toJson.fields.required "kind" ChangeKind.ofJson? = some e.change.kind :=
    e.change.kind.ofJson?_wire
  have hpuzzle : e.toJson.fields.orElse "puzzle" none (asOption? WrittenEvent.kept?) =
      some (puzzleMember? e.change) := by
    rcases e with ⟨_, _ | _ | _ | _⟩
    · exact congrArg (Option.map some) hkept
    · exact congrArg (Option.map some) hkept
    · rfl
    · rfl
  have hround : e.toJson.fields.orElse "round" none (asOption? WrittenEvent.kept?) =
      some (roundMember? e.change) := by
    rcases e with ⟨_, _ | _ | _ | _⟩
    · rfl
    · rfl
    · exact congrArg (Option.map some) hkept
    · exact congrArg (Option.map some) hkept
  have hreminderFix : e.toJson.fields.orElse "reminder_fix" none Instant.reminder? = some none := by
    rcases e with ⟨_, _ | _ | _ | _⟩ <;> rfl
  rw [WrittenEvent.ofJson?, bind_eq_of_some hfields, bind_eq_of_some hchangeId, bind_eq_of_some hkind,
    bind_eq_of_some hpuzzle, bind_eq_of_some hround, bind_eq_of_some hreminderFix]

theorem ofJson_of_written {j : Json} {w : WrittenEvent} (h : WrittenEvent.ofJson? j = some w) :
    ofJson j = w.event.mapError .event := by
  rw [ofJson, h]
  rfl

/-- A change is read back as it was when its reminder is, and it is a malformed puzzle when its
reminder is not read at all. -/
theorem ofJson_toJson (e : SyncEvent) :
    ofJson e.toJson =
      match Instant.reread? e.change.reminder? with
      | some r => .ok { e with change := e.change.withReminder r }
      | none => .error (.event (.badPuzzle e.changeId)) := by
  rw [ofJson_of_written (written?_toJson e), WrittenEvent.event]
  obtain ⟨c, p | id | r | id⟩ := e
  · simp only [WrittenEvent.change, puzzleMember?, roundMember?, Change.entityType, Change.kind,
      entityMember, p.ofJson?_toJson, Change.reminder?]
    cases Instant.reread? p.reminder <;> rfl
  · have hdeleted : WrittenEvent.deleted? (.obj [("id", ofPuzzleId id)]) = some id.val :=
      WrittenEvent.deleted?_ofInt64 id.val
    simp only [WrittenEvent.change, puzzleMember?, roundMember?, Change.entityType, Change.kind,
      entityMember, hdeleted]
    rfl
  · simp only [WrittenEvent.change, puzzleMember?, roundMember?, Change.entityType, Change.kind,
      entityMember, r.ofJson?_toJson]
    rfl
  · have hdeleted : WrittenEvent.deleted? (.obj [("id", ofRoundId id)]) = some id.val :=
      WrittenEvent.deleted?_ofInt64 id.val
    simp only [WrittenEvent.change, puzzleMember?, roundMember?, Change.entityType, Change.kind,
      entityMember, hdeleted]
    rfl

end SyncEvent

/-! ## Messages -/

namespace LiveMessage

/-- The reminder of the puzzle that a message puts in place. -/
def reminder? : LiveMessage → Option Instant
  | sync e => e.change.reminder?
  | _ => none

/-- A message with another reminder, if it can have one; all else stays. -/
def withReminder (r : Option Instant) : LiveMessage → LiveMessage
  | sync e => sync { e with change := e.change.withReminder r }
  | m => m

theorem withReminder_self (m : LiveMessage) : m.withReminder m.reminder? = m := by
  cases m with
  | sync e => exact congrArg (fun c => sync { e with change := c }) e.change.withReminder_self
  | _ => rfl

theorem plain_content (room : Nat) (m : LiveMessage) : Plain (room + 3) m.content := by
  cases m with
  | sync e => exact e.plain_toJson (room + 1)
  | settings s => exact s.plain_toJson (room + 1)
  | presence p => exact Presence.plain_toJson (room + 1) p
  | users u => exact u.plain_toJson room

/-- The frame of a message holds its name and its content. -/
theorem envelope?_encode (m : LiveMessage) : envelope? m.encode = some (m.name, m.content) := by
  have hplain : Plain 4 m.toJson := by
    refine .record ["data", "event"] rfl (by decide) ?_
    simp only [List.forall_mem_cons, List.not_mem_nil, false_imp_iff, implies_true, and_true]
    exact ⟨m.plain_content 0, .str _⟩
  have htext : ofText? m.encode = some m.toJson := hplain.ofText?_text (by decide)
  have hfields : m.toJson.record? ["event", "data"] = some m.toJson.fields :=
    record?_of_plain hplain (by simp)
  have hname : m.toJson.fields.required "event" asText? = some m.name := rfl
  have hdata : m.toJson.fields.orElse "data" .null WrittenEvent.kept? = some m.content :=
    WrittenEvent.kept?_of_plain (m.plain_content 0)
  rw [envelope?, bind_eq_of_some htext, bind_eq_of_some hfields, bind_eq_of_some hname,
    bind_eq_of_some hdata]

theorem decode_encode (m : LiveMessage) : decode m.encode = ofContent m.name m.content := by
  rw [decode, envelope?_encode]

theorem decode_encode_sync (e : SyncEvent) :
    decode (sync e).encode =
      match Instant.reread? e.change.reminder? with
      | some r => .ok ((sync e).withReminder r)
      | none => .error (.malformed (.event (.badPuzzle e.changeId))) := by
  rw [decode_encode, name, ofContent, if_pos rfl, content, SyncEvent.ofJson_toJson]
  cases Instant.reread? e.change.reminder? <;> rfl

/-- A message is read back with its reminder as that is read. -/
theorem decode_encode_of_reread {m : LiveMessage} {r : Option Instant}
    (h : Instant.reread? m.reminder? = some r) : decode m.encode = .ok (m.withReminder r) := by
  cases m with
  | sync e =>
    rw [reminder?] at h
    rw [decode_encode_sync, h]
  | settings s =>
    have hread : Settings.ofJson? (settings s).content = some s := s.ofJson?_toJson
    rw [decode_encode]
    simp [ofContent, name, hread, ofContent.part, withReminder]
  | presence p =>
    have hread : Presence.ofJson? (presence p).content = some p := Presence.ofJson?_toJson p
    rw [decode_encode]
    simp [ofContent, name, hread, ofContent.part, withReminder]
  | users u =>
    have hread : Users.ofJson? (users u).content = some u := u.ofJson?_toJson
    rw [decode_encode]
    simp [ofContent, name, hread, ofContent.part, withReminder]

/-- A frame that is written reads back as its message, if the reminder in it, where there is one,
has a year of four digits from 2000 on; an earlier year of four digits clears the reminder and
nothing else. -/
theorem a_written_frame_reads_back (m : LiveMessage) :
    ((∀ t, m.reminder? = some t → 2000 ≤ t.year ∧ t.year ≤ 9999) → decode m.encode = .ok m) ∧
      ∀ t, m.reminder? = some t → 0 ≤ t.year → t.year ≤ 1999 →
        decode m.encode = .ok (m.withReminder none) := by
  constructor
  · intro hyears
    rw [decode_encode_of_reread (Instant.reread?_self hyears), m.withReminder_self]
  · intro t hr hlow hhigh
    have hearly : ¬ firstReminderYear ≤ t.year := by
      rw [firstReminderYear]
      omega
    refine decode_encode_of_reread ?_
    rw [hr, Instant.reread?, if_pos ⟨hlow, by omega⟩, if_neg hearly]

/-- A message that puts a puzzle with this reminder in place. -/
def fish (reminder : Option Instant) : LiveMessage :=
  .sync ⟨⟨1⟩, .upsertPuzzle { id := ⟨4⟩, name := "Fish", round := ⟨1⟩, reminder }⟩

/-- A moment of the first day of a year. -/
def newYear (year : Int) (h : firstYear ≤ year ∧ year ≤ lastYear) (second : Fin 86400)
    (nanos : Fin 1000000000) : Instant where
  date := ⟨year, 1, 1, h.1, h.2, Nat.le_refl 1, (by decide : 1 ≤ 31)⟩
  second := second
  nanos := nanos
  second_lt := second.2
  nanos_lt := Nat.lt_trans nanos.2 (by decide)
  leap_at_end := fun hleap => absurd hleap (Nat.not_le.2 nanos.2)

theorem a_reminder_is_kept_and_a_zero_time_cleared :
    decode (fish (some (newYear 2026 (by decide) 0 0))).encode = .ok (fish (some (newYear 2026 (by decide) 0 0))) ∧
      decode (fish (some (newYear 1 (by decide) 0 0))).encode = .ok (fish none) := by
  constructor
  · refine (a_written_frame_reads_back (fish (some (newYear 2026 (by decide) 0 0)))).1 fun t ht => ?_
    cases ht
    decide
  · exact (a_written_frame_reads_back (fish (some (newYear 1 (by decide) 0 0)))).2 (newYear 1 (by decide) 0 0)
      rfl (by decide) (by decide)

end LiveMessage

/-! ## What a reader gives -/

theorem ok_of_toOption {ε α : Type} {x : Except ε α} {a : α} (h : x.toOption = some a) : x = .ok a := by
  cases x with
  | error e => cases h
  | ok b => exact congrArg Except.ok (Option.some.inj h)

/-- What a field with the default nothing is read as comes from a value. -/
theorem Json.Fields.of_orElse_none {α : Type} {fs : Fields} {name : String}
    {read : Json → Option (Option α)} {a : α} (h : fs.orElse name none read = some (some a)) :
    ∃ j, read j = some (some a) := by
  unfold orElse at h
  split at h
  · next j _ => exact ⟨j, h⟩
  · cases h

/-- No reminder is read that lies before the first year of reminders. -/
theorem Instant.le_year_of_reminder? {j : Json} {t : Instant} (h : reminder? j = some (some t)) :
    firstReminderYear ≤ t.year := by
  cases j with
  | str s =>
    rw [reminder?] at h
    split at h
    · cases h
    · obtain ⟨u, -, hu⟩ := Option.map_eq_some_iff.1 h
      split at hu
      · next hyear =>
        cases hu
        exact hyear
      · cases hu
  | _ => cases h

theorem Puzzle.le_year_of_ofJson? {j : Json} {p : Puzzle} {t : Instant} (h : ofJson? j = some p)
    (ht : p.reminder = some t) : firstReminderYear ≤ t.year := by
  unfold ofJson? at h
  obtain ⟨fs, -, h⟩ := of_bind_eq_some h
  iterate 12 obtain ⟨_, -, h⟩ := of_bind_eq_some h
  obtain ⟨r, hr, h⟩ := of_bind_eq_some h
  obtain rfl := Option.some.inj h
  obtain rfl : r = some t := ht
  obtain ⟨_, hread⟩ := Fields.of_orElse_none hr
  exact Instant.le_year_of_reminder? hread

namespace WrittenEvent

theorem le_year_of_ofJson? {j : Json} {w : WrittenEvent} {t : Instant} (h : ofJson? j = some w)
    (ht : w.reminderFix = some t) : firstReminderYear ≤ t.year := by
  unfold ofJson? at h
  obtain ⟨fs, -, h⟩ := of_bind_eq_some h
  iterate 4 obtain ⟨_, -, h⟩ := of_bind_eq_some h
  obtain ⟨r, hr, h⟩ := of_bind_eq_some h
  obtain rfl := Option.some.inj h
  obtain rfl : r = some t := ht
  obtain ⟨_, hread⟩ := Fields.of_orElse_none hr
  exact Instant.le_year_of_reminder? hread

/-- The puzzle a change puts in place was read, and perhaps given another reminder. -/
theorem upsertPuzzle_of_change {w : WrittenEvent} {p : Puzzle} (h : w.change = .ok (.upsertPuzzle p)) :
    ∃ j q, Puzzle.ofJson? j = some q ∧ p = fixReminder w.reminderFix q := by
  unfold change at h
  split at h
  · cases h
  · cases h
  · split at h
    · next q hq =>
      cases h
      exact ⟨_, q, hq, rfl⟩
    · cases h
  all_goals
    split at h
    · cases h
    · cases h

end WrittenEvent

/-- A change that was read is the one that was meant by what was written. -/
theorem SyncEvent.written_of_ofJson {j : Json} {e : SyncEvent} (h : ofJson j = .ok e) :
    ∃ w, WrittenEvent.ofJson? j = some w ∧ w.change = .ok e.change := by
  cases hw : WrittenEvent.ofJson? j with
  | none =>
    rw [ofJson, hw] at h
    cases h
  | some w =>
    rw [ofJson_of_written hw, WrittenEvent.event] at h
    cases hc : w.change with
    | error f =>
      rw [hc] at h
      cases h
    | ok c =>
      rw [hc] at h
      cases h
      exact ⟨w, rfl, hc⟩

/-- A reminder in a change that was read is no earlier than the first year of reminders. -/
theorem SyncEvent.le_year_of_ofJson {j : Json} {e : SyncEvent} {t : Instant} (h : ofJson j = .ok e)
    (ht : e.change.reminder? = some t) : firstReminderYear ≤ t.year := by
  obtain ⟨w, hw, hchange⟩ := written_of_ofJson h
  obtain ⟨c, p | _ | _ | _⟩ := e
  · obtain ⟨j, q, hq, rfl⟩ := WrittenEvent.upsertPuzzle_of_change hchange
    cases hfix : w.reminderFix with
    | none =>
      rw [hfix] at ht
      exact Puzzle.le_year_of_ofJson? hq ht
    | some r =>
      rw [hfix] at ht
      exact WrittenEvent.le_year_of_ofJson? hw (hfix.trans ht)
  all_goals cases ht

namespace LiveMessage

theorem ofContent_eq_sync {name : String} {data : Json} {e : SyncEvent}
    (h : ofContent name data = .ok (sync e)) : SyncEvent.ofJson data = .ok e := by
  have hpart : ∀ {α : Type} {make : α → LiveMessage} {x : Option α}, (∀ a, make a ≠ sync e) →
      ofContent.part make x ≠ .ok (sync e) := by
    intro α make x hmake
    cases x with
    | none => simp [ofContent.part]
    | some a => simpa [ofContent.part] using hmake a
  unfold ofContent at h
  split at h
  · split at h
    · next hread =>
      cases h
      exact hread
    · cases h
  · split at h
    · exact absurd h (hpart (by simp))
    · split at h
      · exact absurd h (hpart (by simp))
      · split at h
        · exact absurd h (hpart (by simp))
        · cases h

/-- A reminder in a message that was read is no earlier than the first year of reminders. -/
theorem le_year_of_decode {text : String} {m : LiveMessage} {t : Instant}
    (h : decode text = .ok m) (ht : m.reminder? = some t) : firstReminderYear ≤ t.year := by
  cases m with
  | sync e =>
    unfold decode at h
    split at h
    · exact SyncEvent.le_year_of_ofJson (ofContent_eq_sync h) ht
    · cases h
  | _ => cases ht

/-- What was read can be written and read again, unless its reminder has moved past the year
9999 on its way to UTC; then the frame that is written is refused as a malformed puzzle. -/
theorem what_was_read_reads_back {text : String} {m : LiveMessage} (h : decode text = .ok m) :
    (decode m.encode = .ok m ↔ ∀ t, m.reminder? = some t → t.year ≤ 9999) ∧
      ∀ t, m.reminder? = some t → 9999 < t.year →
        ∃ c, decode m.encode = .error (.malformed (.event (.badPuzzle c))) := by
  have hrefused : ∀ t, m.reminder? = some t → 9999 < t.year →
      ∃ c, decode m.encode = .error (.malformed (.event (.badPuzzle c))) := by
    intro t ht hyear
    cases m with
    | sync e =>
      have hunread : Instant.reread? e.change.reminder? = none := by
        rw [show e.change.reminder? = some t from ht, Instant.reread?, if_neg (by omega)]
      refine ⟨e.changeId, ?_⟩
      rw [decode_encode_sync, hunread]
    | _ => cases ht
  refine ⟨⟨?_, ?_⟩, hrefused⟩
  · intro hback t ht
    refine Int.not_lt.1 fun hyear => ?_
    obtain ⟨c, hc⟩ := hrefused t ht hyear
    rw [hback] at hc
    cases hc
  · intro hyears
    have hread := Instant.reread?_self fun t ht => ⟨le_year_of_decode h ht, hyears t ht⟩
    rw [decode_encode_of_reread hread, m.withReminder_self]

/-- A puzzle whose reminder is written as this text, as the server may send it. -/
def fishJson (reminder : String) : Json :=
  .obj [("data", .obj [("change_id", .int 1), ("kind", .str "upsert"),
    ("puzzle", .obj [("id", .int 4), ("name", .str "Fish"), ("reminder", .str reminder),
      ("round", .int 1)])]), ("event", .str "sync")]

theorem plain_fishJson (reminder : String) : Plain 3 (fishJson reminder) := by
  refine .record ["data", "event"] rfl (by decide) ?_
  simp only [List.forall_mem_cons, List.not_mem_nil, false_imp_iff, implies_true, and_true]
  refine ⟨.record ["change_id", "kind", "puzzle"] rfl (by decide) ?_, .str _⟩
  simp only [List.forall_mem_cons, List.not_mem_nil, false_imp_iff, implies_true, and_true]
  refine ⟨.int (by decide) (by decide), .str _, .record ["id", "name", "reminder", "round"] rfl (by decide) ?_⟩
  simp only [List.forall_mem_cons, List.not_mem_nil, false_imp_iff, implies_true, and_true]
  exact ⟨.int (by decide) (by decide), .str _, .str _, .int (by decide) (by decide)⟩

theorem ofText?_fishJson (reminder : String) :
    Json.ofText? (fishJson reminder).text = some (fishJson reminder) :=
  (plain_fishJson reminder).ofText?_text (by decide)

/-- What the last second of the year 9999 is an hour west of UTC. -/
def lastSecondWestOfUtc : LiveMessage := fish (some (newYear 10000 (by decide) 3599 0))

theorem the_last_second_of_2025_reads_back :
    decode (fishJson "2025-12-31T23:59:59-01:00").text =
        .ok (fish (some (newYear 2026 (by decide) 3599 0))) ∧
      decode (fish (some (newYear 2026 (by decide) 3599 0))).encode =
        .ok (fish (some (newYear 2026 (by decide) 3599 0))) := by
  have hread : decode (fishJson "2025-12-31T23:59:59-01:00").text =
      .ok (fish (some (newYear 2026 (by decide) 3599 0))) := by
    rw [decode, envelope?, bind_eq_of_some (ofText?_fishJson _)]
    exact ok_of_toOption (by decide +kernel)
  refine ⟨hread, (what_was_read_reads_back hread).1.2 fun t ht => ?_⟩
  cases ht
  decide

/-- West of UTC the last second of the year 9999 is taken in, as a time of the year 10000 that is
written as no reader takes it. -/
theorem the_last_second_of_9999_does_not_read_back :
    ¬ ∀ (text : String) (m : LiveMessage), decode text = .ok m → decode m.encode = .ok m := by
  intro h
  have hread : decode (fishJson "9999-12-31T23:59:59-01:00").text = .ok lastSecondWestOfUtc := by
    rw [decode, envelope?, bind_eq_of_some (ofText?_fishJson _)]
    exact ok_of_toOption (by decide +kernel)
  have hrefused : decode lastSecondWestOfUtc.encode = .error (.malformed (.event (.badPuzzle ⟨1⟩))) :=
    decode_encode_sync _
  rw [h _ _ hread] at hrefused
  cases hrefused

end LiveMessage

end HuntBoard
