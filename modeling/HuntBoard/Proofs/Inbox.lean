-- What a hub puts into one inbox: nothing before its tab attaches, then the
-- newest events there are, then every event it takes until the tab is gone.
import HuntBoard.Proofs.HubSteps

namespace HuntBoard

open HubEffect

/-! ## Seats of one inbox -/

namespace Roster

/-- The seats that have an inbox. -/
def seatsAt (r : Roster) (inbox : Inbox) : KeyedMap TabId Seat :=
  r.seats.filter fun _ s => s.inbox = inbox

variable {r : Roster} {inbox : Inbox} {tab : TabId}

/-- A tab that takes a seat with another inbox leaves the seats of this one as they
are, unless it had one of them. -/
theorem seatsAt_attach_of_ne {scope : Option PuzzleId} {other : Inbox} (ho : other ≠ inbox)
    (ht : (r.seatsAt inbox).get? tab = none) :
    (r.attach tab scope other).1.seatsAt inbox = r.seatsAt inbox :=
  KeyedMap.filter_insert_of_neg (by simpa using ho) ht

theorem seatsAt_attach_self (scope : Option PuzzleId) (hr : r.seatsAt inbox = .empty) :
    (r.attach tab scope inbox).1.seatsAt inbox = .single tab ⟨scope, inbox⟩ := by
  have h : (r.attach tab scope inbox).1.seatsAt inbox =
      (r.seatsAt inbox).insert tab ⟨scope, inbox⟩ := KeyedMap.filter_insert_of_pos (by simp)
  rw [h, hr, KeyedMap.insert_empty]

theorem seatsAt_detach (r : Roster) (inbox : Inbox) (tab : TabId) :
    (r.detach tab).1.seatsAt inbox = (r.seatsAt inbox).erase tab := KeyedMap.filter_erase ..

theorem values_seatsAt (r : Roster) (inbox : Inbox) :
    (r.seatsAt inbox).values = r.seats.values.filter (·.inbox = inbox) := by
  unfold KeyedMap.values
  rw [List.filter_map]
  rfl

/-- Of a broadcast, an inbox gets what is meant for its seats. -/
theorem broadcast_at (r : Roster) (m : HubMessage) (inbox : Inbox) :
    ((r.broadcast m).filter (·.inbox = inbox)).map (·.message) =
      (r.seatsAt inbox).values.filterMap fun s => narrowed m s.scope := by
  unfold broadcast parcels
  rw [values_seatsAt, KeyedMap.values]
  induction r.seats.toList with
  | nil => rfl
  | cons e seats ih =>
    obtain ⟨tab, s⟩ := e
    cases hn : narrowed m s.scope with
    | none =>
      have hparcel : parcel? m tab s = none := by simp [parcel?, hn]
      by_cases hs : s.inbox = inbox <;> simp [hparcel, hs, hn, ih]
    | some seen =>
      have hparcel : parcel? m tab s = some ⟨⟨s.inbox, seen⟩, tab⟩ := by simp [parcel?, hn]
      by_cases hs : s.inbox = inbox <;> simp [hparcel, hs, hn, ih]

/-- A tab sees every event, whatever its scope, and no event in anything else. -/
theorem narrowed_event? (m : HubMessage) (scope : Option PuzzleId) :
    (narrowed m scope).bind HubMessage.event? = m.event? := by
  cases m with
  | presence p =>
    cases scope with
    | none => rfl
    | some puzzle => cases hp : p.get? puzzle <;> simp [narrowed, hp, HubMessage.event?]
  | _ => rfl

end Roster

/-! ## Mail -/

namespace HubEffect

/-- The messages that effects put into an inbox, in order. -/
def mail (inbox : Inbox) (es : List HubEffect) : List HubMessage :=
  ((letters es).filter (·.inbox = inbox)).map (·.message)

@[simp] theorem mail_append (inbox : Inbox) (es fs : List HubEffect) :
    mail inbox (es ++ fs) = mail inbox es ++ mail inbox fs := by
  simp [mail]

end HubEffect

namespace Hub

variable {h : Hub} {o : Outcome} {es : List SyncEvent} {inbox : Inbox} {tab : TabId} {seat : Seat}

theorem Tells.mail_eq (ht : h.Tells o es) (inbox : Inbox) :
    ∃ ms : List HubMessage, ms.filterMap HubMessage.event? = es ∧
      mail inbox o.2 =
        ms.flatMap fun m =>
          (h.roster.seatsAt inbox).values.filterMap fun s => Roster.narrowed m s.scope := by
  obtain ⟨ms, hms, hes⟩ := ht
  refine ⟨ms, hes, ?_⟩
  rw [mail, hms, List.filter_flatMap, List.map_flatMap]
  simp only [Roster.broadcast_at]

/-- An inbox that belongs to no seat gets nothing. -/
theorem Tells.mail_of_empty (ht : h.Tells o es) (hs : h.roster.seatsAt inbox = .empty) :
    mail inbox o.2 = [] := by
  obtain ⟨ms, _, hm⟩ := ht.mail_eq inbox
  rw [hm, hs]
  simp [KeyedMap.values, KeyedMap.empty]

/-- An inbox that belongs to one seat gets every event once. -/
theorem Tells.mail_of_single (ht : h.Tells o es) (hs : h.roster.seatsAt inbox = .single tab seat) :
    (mail inbox o.2).filterMap HubMessage.event? = es := by
  obtain ⟨ms, hes, hm⟩ := ht.mail_eq inbox
  have hone : ∀ m : HubMessage,
      ([seat].filterMap fun s => Roster.narrowed m s.scope).filterMap HubMessage.event? =
        m.event?.toList := by
    intro m
    rw [← Roster.narrowed_event? m seat.scope]
    cases hn : Roster.narrowed m seat.scope with
    | none => simp [hn]
    | some m' => cases he : m'.event? <;> simp [hn, he]
  have hv : (KeyedMap.single tab seat).values = [seat] := rfl
  rw [hm, hs, hv, List.filterMap_flatMap, ← hes]
  simp only [hone]
  clear hm hes
  induction ms with
  | nil => rfl
  | cons m ms ih => cases he : m.event? <;> simp [he, ih]

/-! ## One input -/

/-- The input brings no tab of this id to the roster, and none with this inbox. -/
def Foreign (tab : TabId) (inbox : Inbox) (i : HubInput) : Prop :=
  ∀ t b, i.start? = some (t, b) → t ≠ tab ∧ b ≠ inbox

variable {i : HubInput} {is : List HubInput}

theorem start_of_start? {t : TabId} {b : Inbox} (hi : i.start? = some (t, b)) :
    ∃ scope, i = .fromTab (.start t scope) (some b) := by
  unfold HubInput.start? at hi
  split at hi
  · rename_i scope _
    obtain ⟨rfl, rfl⟩ := Prod.mk.inj (Option.some.inj hi)
    exact ⟨scope, rfl⟩
  · simp at hi

theorem mail_attach (h : Hub) (tab : TabId) (scope : Option PuzzleId) (b inbox : Inbox) :
    mail inbox (h.attach tab scope b).2 = if b = inbox then h.welcome else [] := by
  rw [mail, (h.attach_frame tab scope b).2.1, List.filter_map, List.map_map]
  split
  · rename_i hb
    simp [Function.comp_def, hb]
  · rename_i hb
    simp [Function.comp_def, hb]

/-- While no tab has the inbox, nothing comes into it. -/
theorem step_absent (hi : Foreign tab inbox i) (hs : h.roster.seatsAt inbox = .empty) :
    mail inbox (h.step i).2 = [] ∧ (h.step i).1.roster.seatsAt inbox = .empty := by
  cases hst : i.start? with
  | some p =>
    obtain ⟨t, b⟩ := p
    obtain ⟨-, hb⟩ := hi t b hst
    obtain ⟨scope, rfl⟩ := start_of_start? hst
    refine ⟨(h.mail_attach t scope b inbox).trans (if_neg hb), ?_⟩
    rw [step_roster]
    exact (Roster.seatsAt_attach_of_ne hb (by rw [hs]; rfl)).trans hs
  | none =>
    refine ⟨(h.step_tells hst).mail_of_empty hs, ?_⟩
    rw [step_roster]
    split
    · simp [HubInput.start?] at hst
    · rw [Roster.seatsAt_detach, hs]
      rfl
    · exact hs

/-- While one tab has the inbox, every event that the hub takes comes into it. -/
theorem step_seated (hi : Foreign tab inbox i) (hs : h.roster.seatsAt inbox = .single tab seat) :
    (mail inbox (h.step i).2).filterMap HubMessage.event? = h.taken i ∧
    (h.step i).1.roster.seatsAt inbox = if i = .tabGone tab then .empty else .single tab seat := by
  cases hst : i.start? with
  | some p =>
    obtain ⟨t, b⟩ := p
    obtain ⟨ht, hb⟩ := hi t b hst
    obtain ⟨scope, rfl⟩ := start_of_start? hst
    have hmail : mail inbox (h.step (.fromTab (.start t scope) (some b))).2 = [] :=
      (h.mail_attach t scope b inbox).trans (if_neg hb)
    have hfree : (h.roster.seatsAt inbox).get? t = none := by
      rw [hs, KeyedMap.get?_single]
      simp [ht]
    refine ⟨by rw [hmail]; rfl, ?_⟩
    rw [step_roster]
    exact (Roster.seatsAt_attach_of_ne hb hfree).trans hs
  | none =>
    refine ⟨(h.step_tells hst).mail_of_single hs, ?_⟩
    rw [step_roster]
    split
    · simp [HubInput.start?] at hst
    · rename_i t
      rw [Roster.seatsAt_detach, hs]
      by_cases ht : t = tab
      · simp [ht, KeyedMap.erase_single_self]
      · simp [ht, KeyedMap.erase_single_ne ht]
    · rename_i hgone
      rw [if_neg fun heq => hgone tab heq, hs]

/-! ## Many inputs -/

theorem run_absent (his : ∀ i ∈ is, Foreign tab inbox i) (hs : h.roster.seatsAt inbox = .empty) :
    mail inbox (h.run is).2 = [] ∧ (h.run is).1.roster.seatsAt inbox = .empty := by
  induction is generalizing h with
  | nil => exact ⟨rfl, hs⟩
  | cons i is ih =>
    rw [List.forall_mem_cons] at his
    obtain ⟨hm, hs'⟩ := step_absent his.1 hs
    obtain ⟨hms, hs''⟩ := ih his.2 hs'
    exact ⟨by simp [hm, hms], hs''⟩

/-- The inputs before the one that tells that a tab is gone. -/
def untilGone (tab : TabId) (is : List HubInput) : List HubInput := is.takeWhile (· ≠ .tabGone tab)

theorem run_seated (his : ∀ i ∈ is, Foreign tab inbox i)
    (hs : h.roster.seatsAt inbox = .single tab seat) :
    (mail inbox (h.run is).2).filterMap HubMessage.event? = h.takenAll (untilGone tab is) := by
  induction is generalizing h with
  | nil => rfl
  | cons i is ih =>
    rw [List.forall_mem_cons] at his
    obtain ⟨hm, hs'⟩ := step_seated his.1 hs
    rw [run_cons, andThen_snd, mail_append, List.filterMap_append, hm, untilGone,
      List.takeWhile_cons]
    by_cases hgone : i = .tabGone tab
    -- Nobody has the inbox from here on.
    · rw [if_pos hgone] at hs'
      rw [(run_absent his.2 hs').1]
      simp [hgone, taken, takenAll]
    · rw [if_neg hgone] at hs'
      simp [hgone, takenAll, ih his.2 hs', untilGone]

/-! ## The whole inbox -/

/-- One of the inputs attaches a tab with its inbox, and no other attaches a tab
with this id or this inbox. -/
def AttachesOnce (tab : TabId) (inbox : Inbox) (is : List HubInput) : Prop :=
  ∃ before scope after, is = before ++ .fromTab (.start tab scope) (some inbox) :: after ∧
    (∀ i ∈ before, Foreign tab inbox i) ∧ ∀ i ∈ after, Foreign tab inbox i

theorem life_absent (c : HubConfig) (his : ∀ i ∈ is, Foreign tab inbox i) :
    mail inbox (life c is).2 = [] ∧ (life c is).1.roster.seatsAt inbox = .empty := by
  obtain ⟨hm, hs⟩ := run_absent (h := (start c).1) his rfl
  have hstart : mail inbox (start c).2 = [] := rfl
  exact ⟨by rw [life, andThen_snd, mail_append, hstart, hm]; rfl, hs⟩

theorem welcome_events (h : Hub) : h.welcome.filterMap HubMessage.event? = h.recent.events := by
  have hsettings :
      (h.settings.toList.map HubMessage.settings).filterMap HubMessage.event? = [] := by
    cases h.settings <;> rfl
  have hsync :
      (h.recent.events.map HubMessage.sync).filterMap HubMessage.event? = h.recent.events := by
    rw [List.filterMap_map]
    exact List.filterMap_some
  rw [welcome, List.filterMap_cons_none rfl, List.filterMap_append, hsettings, hsync,
    List.nil_append]

variable {before after : List HubInput}

/-- The events in an inbox whose tab attaches once: the newest that the buffer
holds at that time, then all that the hub takes until the tab is gone. -/
theorem events_in_inbox (c : HubConfig) (scope : Option PuzzleId)
    (hbefore : ∀ i ∈ before, Foreign tab inbox i) (hafter : ∀ i ∈ after, Foreign tab inbox i) :
    (mail inbox (life c (before ++ .fromTab (.start tab scope) (some inbox) :: after)).2).filterMap
        HubMessage.event? =
      (pushed c before).drop ((pushed c before).length - max c.recentCapacity 1) ++
        ((life c before).1.attach tab scope inbox).1.takenAll (untilGone tab after) := by
  obtain ⟨hm, hs⟩ := life_absent c hbefore
  let h := (life c before).1
  have hseat : (h.attach tab scope inbox).1.roster.seatsAt inbox = .single tab ⟨scope, inbox⟩ :=
    Roster.seatsAt_attach_self scope hs
  have hrest := run_seated hafter hseat
  have hattach := h.mail_attach tab scope inbox inbox
  rw [if_pos rfl] at hattach
  rw [life_append, andThen_snd, mail_append, hm, List.nil_append, run_cons, andThen_snd,
    mail_append, List.filterMap_append]
  rw [← Recent.ofCapacity_pushAll_events, ← life_recent, ← h.welcome_events, ← hattach]
  exact congrArg (_ ++ ·) hrest

/-- So they are a stretch of all events that the hub took. -/
theorem events_in_inbox_infix (c : HubConfig) (his : AttachesOnce tab inbox is) :
    (mail inbox (life c is).2).filterMap HubMessage.event? <:+: pushed c is := by
  obtain ⟨before, scope, after, rfl, hbefore, hafter⟩ := his
  let h := ((life c before).1.attach tab scope inbox).1
  let old := (pushed c before).length - max c.recentCapacity 1
  let late := after.dropWhile (· ≠ .tabGone tab)
  have htaken : h.takenAll after =
      h.takenAll (untilGone tab after) ++ (h.run (untilGone tab after)).1.takenAll late := by
    rw [← takenAll_append, untilGone, List.takeWhile_append_dropWhile]
  rw [events_in_inbox c scope hbefore hafter, pushed_append]
  refine ⟨(pushed c before).take old, (h.run (untilGone tab after)).1.takenAll late, ?_⟩
  rw [← List.append_assoc, List.take_append_drop, List.append_assoc]
  exact congrArg (_ ++ ·) htaken.symm

end Hub

end HuntBoard
