-- A message of the hub is an object of two members, its kind and its content. It reads back
-- whichever of them comes first, but for presence: content that comes before its kind is known
-- can no longer name a puzzle.
import HuntBoard.Channel
import HuntBoard.Proofs.Frames

namespace HuntBoard

open Json

theorem HubMessage.Kind.ofJson?_name (k : Kind) : ofJson? (.str k.name) = some k := by
  cases k <;> rfl

theorem LinkState.ofJson?_name (s : LinkState) : ofJson? (.str s.name) = some s := by
  cases s <;> rfl

/-- Only who looks at nothing is written without members. -/
theorem Presence.eq_empty_of_toJson {p : Presence} (h : toJson p = .obj []) : p = .empty := by
  have hread := ofJson?_toJson p
  rw [h] at hread
  exact (Option.some.inj hread).symm

namespace HubMessage

variable {m : HubMessage} {e : SyncEvent}

/-! ## Both orders -/

/-- A message with its kind in front of its content; with its content in front it is `toJson`. -/
def kindFirst (m : HubMessage) : Json := .obj [("event", .str m.kind.name), ("data", m.content)]

theorem plain_content (room : Nat) (m : HubMessage) : Plain (room + 3) m.content := by
  cases m with
  | sync e => exact e.plain_toJson (room + 1)
  | status s => exact .str s.name
  | settings s => exact s.plain_toJson (room + 1)
  | presence p => exact Presence.plain_toJson (room + 1) p
  | users u => exact u.plain_toJson room

/-- The text of an object is read like the object. -/
theorem ofText_text {room : Nat} {ms : List (String × Json)} (h : ∀ x ∈ ms, Plain room x.2)
    (hroom : room < deepest) : ofText (Json.obj ms).text = ofJson (.obj ms) := by
  have hmembers := leadingMembers_text h hroom
  unfold ofText
  rw [skipSpace_obj]
  simp only [hmembers]
  rfl

theorem finish_nil (x : Except ReadFault HubMessage) : finish true [] x = x := by
  cases x <;> rfl

/-- Behind its kind, content is read as what it is. -/
theorem ofText_kindFirst (m : HubMessage) : ofText m.kindFirst.text = ofContent m.kind m.content := by
  have hplain : ∀ x ∈ [("event", .str m.kind.name), ("data", m.content)], Plain 3 x.2 := by
    simp only [List.forall_mem_cons, List.not_mem_nil, false_imp_iff, implies_true, and_true]
    exact ⟨.str _, m.plain_content 0⟩
  calc ofText m.kindFirst.text
      _ = ofMembers true [(some "event", .str m.kind.name), (some "data", m.content)] :=
        ofText_text hplain (by decide)
      _ = contentAfter m.kind true [(some "data", m.content)] := by
        rw [ofMembers, if_pos rfl, m.kind.ofJson?_name]
      _ = finish true [] (ofContent m.kind m.content) := by
        rw [contentAfter, if_pos rfl]
      _ = ofContent m.kind m.content := finish_nil _

/-- In front of its kind, content is read before it is known what it is. -/
theorem ofText_contentFirst (m : HubMessage) :
    ofText m.toJson.text = ofEarlyContent m.kind m.content := by
  have hplain : ∀ x ∈ [("data", m.content), ("event", .str m.kind.name)], Plain 3 x.2 := by
    simp only [List.forall_mem_cons, List.not_mem_nil, false_imp_iff, implies_true, and_true]
    exact ⟨m.plain_content 0, .str _⟩
  have hreadable : m.content.readable := (m.plain_content 0).readable
  calc ofText m.toJson.text
      _ = ofMembers true [(some "data", m.content), (some "event", .str m.kind.name)] :=
        ofText_text hplain (by decide)
      _ = kindAfter m.content true [(some "event", .str m.kind.name)] := by
        rw [ofMembers, if_neg (by decide), if_pos rfl, if_pos hreadable]
      _ = finish true [] (ofEarlyContent m.kind m.content) := by
        rw [kindAfter, if_pos rfl, m.kind.ofJson?_name]
      _ = ofEarlyContent m.kind m.content := finish_nil _

/-! ## Contents -/

/-- The reminder of the puzzle that a message puts in place. -/
def reminder? : HubMessage → Option Instant
  | sync e => e.change.reminder?
  | _ => none

/-- Content reads back as it was when its reminder does. -/
theorem ofContent_of_reread (h : Instant.reread? m.reminder? = some m.reminder?) :
    ofContent m.kind m.content = .ok m := by
  cases m with
  | sync e =>
    rw [reminder?] at h
    have hread : SyncEvent.ofJson e.toJson = .ok e := by
      rw [SyncEvent.ofJson_toJson, h]
      simp only [e.change.withReminder_self]
    change (SyncEvent.ofJson e.toJson).map sync = _
    rw [hread]
    rfl
  | status s =>
    change orShape ((LinkState.ofJson? (.str s.name)).map status) = _
    rw [s.ofJson?_name]
    rfl
  | settings s =>
    change orShape ((Settings.ofJson? s.toJson).map settings) = _
    rw [s.ofJson?_toJson]
    rfl
  | presence p =>
    change orShape ((Presence.ofJson? (Presence.toJson p)).map presence) = _
    rw [Presence.ofJson?_toJson]
    rfl
  | users u =>
    change orShape ((Users.ofJson? u.toJson).map users) = _
    rw [u.ofJson?_toJson]
    rfl

theorem ofContent_of_unread (h : Instant.reread? m.reminder? = none) :
    ∃ c, ofContent m.kind m.content = .error (.event (.badPuzzle c)) := by
  cases m with
  | sync e =>
    rw [reminder?] at h
    refine ⟨e.changeId, ?_⟩
    change (SyncEvent.ofJson e.toJson).map sync = _
    rw [SyncEvent.ofJson_toJson, h]
    rfl
  | _ => cases h

/-- A choice is written as its name alone, so written content is taken as it is. -/
theorem early_content (m : HubMessage) : early m.kind m.content = m.content := by
  cases m with
  | sync e =>
    change early .sync e.toJson = e.toJson
    unfold SyncEvent.toJson early
    cases e.change <;> simp [SyncEvent.entityMember, overNull]
  | _ => rfl

/-- Without presence in it, content may come before its kind is known. -/
theorem ofEarlyContent_eq (h : ∀ p, m = .presence p → p = .empty) :
    ofEarlyContent m.kind m.content = ofContent m.kind m.content := by
  have htaken : ofEarlyContent m.kind m.content = ofContent m.kind (early m.kind m.content) := by
    cases m with
    | presence p =>
      rw [h p rfl]
      rfl
    | _ => rfl
  rw [htaken, early_content]

theorem ofEarlyContent_presence {p : Presence} (h : p ≠ .empty) :
    ofEarlyContent .presence (Presence.toJson p) = .error .shape := by
  obtain ⟨ms, hms⟩ : ∃ ms, Presence.toJson p = .obj ms := ⟨_, rfl⟩
  cases ms with
  | nil => exact absurd (Presence.eq_empty_of_toJson hms) h
  | cons x ms =>
    rw [hms]
    rfl

/-! ## What a reader gives -/

theorem of_finish {ended : Bool} {rest : List (Option String × Json)}
    {x : Except ReadFault HubMessage} (h : finish ended rest x = .ok m) : x = .ok m := by
  cases x with
  | error f => cases h
  | ok m' =>
    rw [finish] at h
    split at h
    · exact h
    · cases h

theorem sync_of_ofContent {kind : Kind} {data : Json} (h : ofContent kind data = .ok (.sync e)) :
    SyncEvent.ofJson data = .ok e := by
  have hshape : ∀ {α : Type} {x : Option α} {make : α → HubMessage}, (∀ a, make a ≠ .sync e) →
      orShape (x.map make) ≠ .ok (.sync e) := by
    intro α x make hmake
    cases x with
    | none => simp [orShape]
    | some a => simpa [orShape] using hmake a
  cases kind with
  | sync =>
    cases hread : SyncEvent.ofJson data with
    | error f =>
      rw [ofContent, hread] at h
      cases h
    | ok e' =>
      rw [ofContent, hread] at h
      cases h
      rfl
  | _ => exact absurd h (hshape (by simp))

theorem sync_of_ofEarlyContent {kind : Kind} {data : Json}
    (h : ofEarlyContent kind data = .ok (.sync e)) : ∃ j, SyncEvent.ofJson j = .ok e := by
  unfold ofEarlyContent at h
  split at h
  · cases h
  · exact ⟨_, sync_of_ofContent h⟩

theorem sync_of_contentAfter {kind : Kind} {ended : Bool} {ms : List (Option String × Json)}
    (h : contentAfter kind ended ms = .ok (.sync e)) : ∃ j, SyncEvent.ofJson j = .ok e := by
  induction ms with
  | nil => cases h
  | cons x ms ih =>
    obtain ⟨name, j⟩ := x
    cases name with
    | none => cases h
    | some name =>
      rw [contentAfter] at h
      split at h
      · exact ⟨j, sync_of_ofContent (of_finish h)⟩
      · split at h
        · cases h
        · exact ih h

theorem sync_of_kindAfter {data : Json} {ended : Bool} {ms : List (Option String × Json)}
    (h : kindAfter data ended ms = .ok (.sync e)) : ∃ j, SyncEvent.ofJson j = .ok e := by
  induction ms with
  | nil => cases h
  | cons x ms ih =>
    obtain ⟨name, j⟩ := x
    cases name with
    | none => cases h
    | some name =>
      rw [kindAfter] at h
      split at h
      · split at h
        · exact sync_of_ofEarlyContent (of_finish h)
        · cases h
      · split at h
        · cases h
        · exact ih h

theorem sync_of_ofMembers {ended : Bool} {ms : List (Option String × Json)}
    (h : ofMembers ended ms = .ok (.sync e)) : ∃ j, SyncEvent.ofJson j = .ok e := by
  induction ms with
  | nil => cases h
  | cons x ms ih =>
    obtain ⟨name, j⟩ := x
    cases name with
    | none => cases h
    | some name =>
      rw [ofMembers] at h
      split at h
      · split at h
        · exact sync_of_contentAfter h
        · cases h
      · split at h
        · split at h
          · exact sync_of_kindAfter h
          · cases h
        · exact ih h

theorem sync_of_ofJson {j : Json} (h : ofJson j = .ok (.sync e)) : ∃ j, SyncEvent.ofJson j = .ok e := by
  unfold ofJson at h
  split at h
  · exact sync_of_ofMembers h
  · split at h
    · exact ⟨_, sync_of_ofContent h⟩
    · cases h
  · cases h

theorem sync_of_ofText {text : String} (h : ofText text = .ok (.sync e)) :
    ∃ j, SyncEvent.ofJson j = .ok e := by
  unfold ofText at h
  split at h
  · exact sync_of_ofMembers h
  · split at h
    · exact sync_of_ofJson h
    · cases h

/-- A reminder in a message that was read is no earlier than the first year of reminders. -/
theorem le_year_of_ofText {text : String} {t : Instant} (h : ofText text = .ok m)
    (ht : m.reminder? = some t) : firstReminderYear ≤ t.year := by
  cases m with
  | sync e =>
    obtain ⟨j, hj⟩ := sync_of_ofText h
    exact SyncEvent.le_year_of_ofJson hj ht
  | _ => cases ht

/-! ## The law -/

/-- A message that was read from a text reads back with its kind in front, and with its content in
front too, unless it tells of somebody's presence: that is refused. In either order a reminder
that has moved past the year 9999 on its way to UTC makes a malformed puzzle. -/
theorem the_order_of_members_matters_to_presence_only {text : String} (h : ofText text = .ok m) :
    let dated := ∀ t, m.reminder? = some t → t.year ≤ 9999
    (ofText m.kindFirst.text = .ok m ↔ dated) ∧
    (ofText m.toJson.text = .ok m ↔ dated ∧ ∀ p, m = .presence p → p = .empty) ∧
    (∀ p, m = .presence p → p ≠ .empty → ofText m.toJson.text = .error .shape) ∧
    (¬ dated → ∃ c, ofText m.kindFirst.text = .error (.event (.badPuzzle c)) ∧
      ofText m.toJson.text = .error (.event (.badPuzzle c))) := by
  intro dated
  rw [ofText_kindFirst, ofText_contentFirst]
  have hrefused : ¬ dated → ∃ c, ofContent m.kind m.content = .error (.event (.badPuzzle c)) := by
    intro hnot
    obtain ⟨t, hnot⟩ := not_forall.1 hnot
    obtain ⟨ht, hyear⟩ := Classical.not_imp.1 hnot
    refine ofContent_of_unread ?_
    rw [ht, Instant.reread?, if_neg (by omega)]
  have hback : ofContent m.kind m.content = .ok m ↔ dated := by
    constructor
    · intro hback
      by_contra hnot
      obtain ⟨c, hc⟩ := hrefused hnot
      rw [hback] at hc
      cases hc
    · intro hdated
      exact ofContent_of_reread (Instant.reread?_self fun t ht => ⟨le_year_of_ofText h ht, hdated t ht⟩)
  have hsomebody : ∀ p, m = .presence p → p ≠ .empty → ofEarlyContent m.kind m.content = .error .shape := by
    rintro p rfl hp
    exact ofEarlyContent_presence hp
  refine ⟨hback, ?_, hsomebody, ?_⟩
  · constructor
    · intro hearly
      have hempty : ∀ p, m = .presence p → p = .empty := by
        intro p hm
        by_contra hp
        rw [hsomebody p hm hp] at hearly
        cases hearly
      rw [ofEarlyContent_eq hempty] at hearly
      exact ⟨hback.1 hearly, hempty⟩
    · intro hboth
      rw [ofEarlyContent_eq hboth.2]
      exact hback.2 hboth.1
  · intro hnot
    have hempty : ∀ p, m = .presence p → p = .empty := by
      rintro p rfl
      exact absurd (fun t ht => by cases ht) hnot
    rw [ofEarlyContent_eq hempty]
    obtain ⟨c, hc⟩ := hrefused hnot
    exact ⟨c, hc, hc⟩

/-- A message that puts a puzzle with this reminder in place. -/
def fish (reminder : Option Instant) : HubMessage :=
  .sync ⟨⟨1⟩, .upsertPuzzle { id := ⟨4⟩, name := "Fish", round := ⟨1⟩, reminder }⟩

theorem the_last_second_of_2025_comes_in_any_order :
    let m := fish (some (LiveMessage.newYear 2026 (by decide) 3599 0))
    ofText (LiveMessage.fishJson "2025-12-31T23:59:59-01:00").text = .ok m ∧
      ofText m.kindFirst.text = .ok m ∧ ofText m.toJson.text = .ok m := by
  intro m
  have hread : ofText (LiveMessage.fishJson "2025-12-31T23:59:59-01:00").text = .ok m := by
    cases LiveMessage.plain_fishJson "2025-12-31T23:59:59-01:00" with
    | obj _ hplain =>
      rw [LiveMessage.fishJson, ofText_text hplain (by decide)]
      exact ok_of_toOption (by decide +kernel)
  have hdated : ∀ t, m.reminder? = some t → t.year ≤ 9999 := by
    rintro t ⟨⟩
    decide
  have hfish : ∀ p, m ≠ .presence p := by simp [m, fish]
  obtain ⟨hkindFirst, hcontentFirst, -⟩ := the_order_of_members_matters_to_presence_only hread
  exact ⟨hread, hkindFirst.2 hdated, hcontentFirst.2 ⟨hdated, fun p hp => absurd hp (hfish p)⟩⟩

/-- Alice looks at a puzzle. -/
def alice : HubMessage := .presence (.ofList [(⟨4⟩, .ofList [("alice", true)])])

/-- Who looks at a puzzle is told, but not heard when the members change places. -/
theorem alice_is_not_heard_in_front :
    ¬ ∀ (text : String) (m : HubMessage), ofText text = .ok m →
      ofText m.kindFirst.text = .ok m ∧ ofText m.toJson.text = .ok m := by
  intro hall
  have hread : ofText alice.kindFirst.text = .ok alice := by
    rw [ofText_kindFirst]
    exact ofContent_of_reread rfl
  have hrefused : ofText alice.toJson.text = .error .shape := by
    rw [ofText_contentFirst]
    exact ofEarlyContent_presence (by decide)
  rw [(hall _ _ hread).2] at hrefused
  cases hrefused

end HubMessage

end HuntBoard
