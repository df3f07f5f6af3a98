-- What comes into the inboxes of a tab is its own affair: it hangs on what is done with this tab
-- and on what is said to all. Which other tabs there are makes no difference, and a tab with an
-- eye on one puzzle cannot tell who looks at others.
import HuntBoard.Proofs.Parcels

namespace HuntBoard

/-! ## A roster at work -/

/-- What is done with a roster, and with the inboxes that it knows. -/
inductive Errand where
  | attach (tab : TabId) (scope : Option PuzzleId) (inbox : Inbox)
  | detach (tab : TabId)
  | unicast (tab : TabId) (m : HubMessage)
  | broadcast (m : HubMessage)
  /-- Nobody reads an inbox any more. -/
  | closes (inbox : Inbox)
  deriving DecidableEq

/-- A roster, and the inboxes that its messages are put into. -/
structure PostOffice where
  roster : Roster := {}
  closed : List Inbox := []
  /-- All that was put into inboxes, in order. -/
  parcels : List Parcel := []

namespace PostOffice

/-- Put parcels into their inboxes; what is for a closed one is lost. -/
def put (o : PostOffice) (ps : List Parcel) : PostOffice :=
  { o with parcels := o.parcels ++ ps.filter (·.inbox ∉ o.closed) }

def step (o : PostOffice) : Errand → PostOffice
  | .attach tab scope inbox => { o with roster := (o.roster.attach tab scope inbox).1 }
  | .detach tab => { o with roster := (o.roster.detach tab).1 }
  | .unicast tab m => o.put ((o.roster.unicast tab m).toList.map (⟨·, tab⟩))
  | .broadcast m => o.put (o.roster.parcels m)
  | .closes inbox => { o with closed := inbox :: o.closed }

/-- Run errands in order. -/
def run (o : PostOffice) (es : List Errand) : PostOffice := es.foldl step o

def letters (o : PostOffice) : List Letter := o.parcels.map (·.toLetter)

/-- The messages that were put into an inbox. -/
def heard (o : PostOffice) (inbox : Inbox) : List HubMessage :=
  (o.letters.filter (·.inbox = inbox)).map (·.message)

end PostOffice

/-! ## What concerns a tab -/

namespace Errand

/-- The inboxes that a tab attaches with. -/
def inboxesOf (tab : TabId) (es : List Errand) : List Inbox :=
  es.filterMap fun
    | .attach t _ inbox => if t = tab then some inbox else none
    | _ => none

theorem mem_inboxesOf {tab : TabId} {es : List Errand} {inbox : Inbox} :
    inbox ∈ inboxesOf tab es ↔ ∃ scope, attach tab scope inbox ∈ es := by
  rw [inboxesOf, List.mem_filterMap]
  constructor
  · rintro ⟨e, he, hinbox⟩
    split at hinbox
    · next t scope _ =>
      split at hinbox
      · next ht =>
        subst ht
        cases hinbox
        exact ⟨scope, he⟩
      · cases hinbox
    · cases hinbox
  · rintro ⟨scope, he⟩
    exact ⟨_, he, if_pos rfl⟩

/-- An errand is about a tab that has these inboxes, or it is about all tabs. -/
def Concerns (tab : TabId) (mine : List Inbox) : Errand → Prop
  | .attach t _ _ | .detach t | .unicast t _ => t = tab
  | .broadcast _ => True
  | .closes inbox => inbox ∈ mine

instance (tab : TabId) (mine : List Inbox) (e : Errand) : Decidable (e.Concerns tab mine) := by
  cases e <;> unfold Concerns <;> infer_instance

/-- The seat that a tab has after an errand. -/
def seatAfter (tab : TabId) (seat : Option Seat) : Errand → Option Seat
  | .attach t scope inbox => if t = tab then some ⟨scope, inbox⟩ else seat
  | .detach t => if t = tab then none else seat
  | _ => seat

end Errand

/-- Two messages for all are the same to a tab with this scope. One with an eye on a puzzle hears
of presence what there is on that puzzle. -/
def HubMessage.SameTo : Option PuzzleId → HubMessage → HubMessage → Prop
  | none, m, n => m = n
  | some puzzle, m, n =>
    m = n ∨ ∃ p q, m = .presence p ∧ n = .presence q ∧ p.get? puzzle = q.get? puzzle

theorem HubMessage.SameTo.refl (scope : Option PuzzleId) (m : HubMessage) : m.SameTo scope m := by
  cases scope with
  | none => exact rfl
  | some puzzle => exact .inl rfl

/-- Two lists of errands are alike to a tab: what concerns it comes in the same order in both, and
what is said to all while it has a seat is the same to it. -/
inductive Alike (tab : TabId) (mine : List Inbox) : Option Seat → List Errand → List Errand → Prop
  | nil {seat : Option Seat} : Alike tab mine seat [] []
  | left {seat : Option Seat} {e : Errand} {xs ys : List Errand} :
      ¬ e.Concerns tab mine → Alike tab mine seat xs ys → Alike tab mine seat (e :: xs) ys
  | right {seat : Option Seat} {e : Errand} {xs ys : List Errand} :
      ¬ e.Concerns tab mine → Alike tab mine seat xs ys → Alike tab mine seat xs (e :: ys)
  | own {seat : Option Seat} {e : Errand} {xs ys : List Errand} :
      Alike tab mine (e.seatAfter tab seat) xs ys → Alike tab mine seat (e :: xs) (e :: ys)
  | broadcast {seat : Option Seat} {m n : HubMessage} {xs ys : List Errand} :
      (∀ s, seat = some s → m.SameTo s.scope n) → Alike tab mine seat xs ys →
      Alike tab mine seat (.broadcast m :: xs) (.broadcast n :: ys)

/-! ## What a tab can tell -/

/-- All that a tab can tell of an office. -/
structure Outlook where
  seat : Option Seat
  /-- Which of its inboxes are closed. -/
  closed : List Inbox
  /-- What was put into its inboxes for it. -/
  got : List Parcel

namespace PostOffice

variable {o q : PostOffice} {tab : TabId} {mine : List Inbox} {e : Errand}

def outlook (o : PostOffice) (tab : TabId) (mine : List Inbox) : Outlook where
  seat := o.roster.seats.get? tab
  closed := o.closed.filter (· ∈ mine)
  got := o.parcels.filter (·.tab = tab)

/-- Parcels for other tabs change nothing. -/
theorem outlook_put_foreign {ps : List Parcel} (h : ∀ p ∈ ps, p.tab ≠ tab) :
    (o.put ps).outlook tab mine = o.outlook tab mine := by
  have hnone : (ps.filter (·.inbox ∉ o.closed)).filter (·.tab = tab) = [] := by
    rw [List.filter_eq_nil_iff]
    intro p hp
    simpa using h p (List.mem_of_mem_filter hp)
  simp only [outlook, put, List.filter_append, hnone, List.append_nil]

/-- A tab can tell of parcels what is in them for itself. -/
theorem outlook_put {ps qs : List Parcel} (h : o.outlook tab mine = q.outlook tab mine)
    (hps : ps.filter (·.tab = tab) = qs.filter (·.tab = tab))
    (hmine : ∀ p ∈ ps, p.tab = tab → p.inbox ∈ mine) :
    (o.put ps).outlook tab mine = (q.put qs).outlook tab mine := by
  obtain ⟨hseat, hclosed, hgot⟩ := Outlook.mk.inj h
  have hopen : ∀ p ∈ ps.filter (·.tab = tab), (p.inbox ∉ o.closed ↔ p.inbox ∉ q.closed) := by
    intro p hp
    obtain ⟨hmem, htab⟩ := List.mem_filter.1 hp
    have hinbox := hmine p hmem (of_decide_eq_true htab)
    have hfilter : ∀ c : List Inbox, p.inbox ∈ c.filter (· ∈ mine) ↔ p.inbox ∈ c := by
      simp [List.mem_filter, hinbox]
    rw [← hfilter o.closed, hclosed, hfilter]
  have hput : (ps.filter (·.tab = tab)).filter (·.inbox ∉ o.closed) =
      (qs.filter (·.tab = tab)).filter (·.inbox ∉ q.closed) := by
    rw [← hps]
    exact List.filter_congr fun p hp => decide_eq_decide.2 (hopen p hp)
  have hswap : ∀ (ps : List Parcel) (c : List Inbox),
      (ps.filter (·.inbox ∉ c)).filter (·.tab = tab) =
        (ps.filter (·.tab = tab)).filter (·.inbox ∉ c) := fun ps c => List.filter_comm ..
  simp only [outlook, put, List.filter_append, hswap, Outlook.mk.injEq]
  exact ⟨hseat, hclosed, by rw [hgot, hput]⟩

/-! ## One errand -/

theorem seat_step (o : PostOffice) (tab : TabId) (e : Errand) :
    (o.step e).roster.seats.get? tab = e.seatAfter tab (o.roster.seats.get? tab) := by
  cases e with
  | attach t scope inbox =>
    by_cases ht : t = tab
    · simp [step, Roster.attach, Errand.seatAfter, ht]
    · simp [step, Roster.attach, Errand.seatAfter, ht, KeyedMap.get?_insert_ne _ _ (Ne.symm ht)]
  | detach t =>
    by_cases ht : t = tab
    · simp [step, Roster.detach, Errand.seatAfter, ht]
    · simp [step, Roster.detach, Errand.seatAfter, ht, KeyedMap.get?_erase_ne _ (Ne.symm ht)]
  | _ => rfl

/-- What does not concern a tab changes nothing for it. -/
theorem outlook_step_foreign (he : ¬ e.Concerns tab mine) :
    (o.step e).outlook tab mine = o.outlook tab mine := by
  have hseat := o.seat_step tab e
  cases e with
  | attach t scope inbox => exact congrArg (Outlook.mk · _ _) (hseat.trans (if_neg he))
  | detach t => exact congrArg (Outlook.mk · _ _) (hseat.trans (if_neg he))
  | unicast t m =>
    refine outlook_put_foreign fun p hp => ?_
    obtain ⟨l, -, rfl⟩ := List.mem_map.1 hp
    exact he
  | broadcast m => exact absurd trivial he
  | closes inbox =>
    have hnot : decide (inbox ∈ mine) = false := decide_eq_false he
    simp only [outlook, step, List.filter_cons, hnot, Bool.false_eq_true, ↓reduceIte]

/-- What a tab gets of a message for all hangs on its own seat. -/
theorem parcels_to_of_sameTo {r r' : Roster} {m n : HubMessage}
    (hseat : r.seats.get? tab = r'.seats.get? tab)
    (hsame : ∀ s, r.seats.get? tab = some s → m.SameTo s.scope n) :
    (r.parcels m).filter (·.tab = tab) = (r'.parcels n).filter (·.tab = tab) := by
  rw [Roster.parcels_to, Roster.parcels_to, ← hseat]
  cases hs : r.seats.get? tab with
  | none => rfl
  | some seat =>
    have hseen : Roster.narrowed m seat.scope = Roster.narrowed n seat.scope := by
      have hsame := hsame seat hs
      cases hscope : seat.scope with
      | none =>
        rw [hscope] at hsame
        rw [show m = n from hsame]
      | some puzzle =>
        rw [hscope] at hsame
        rcases hsame with rfl | ⟨p, p', rfl, rfl, hget⟩
        · rfl
        · rw [Roster.narrowed, Roster.narrowed, hget]
    rw [Option.bind_some, Option.bind_some, Roster.parcel?, Roster.parcel?, hseen]

/-- The inbox of a tab's seat is one of these. -/
def SitsAmong (o : PostOffice) (tab : TabId) (mine : List Inbox) : Prop :=
  ∀ s, o.roster.seats.get? tab = some s → s.inbox ∈ mine

theorem SitsAmong.parcels (h : o.SitsAmong tab mine) (m : HubMessage) :
    ∀ p ∈ o.roster.parcels m, p.tab = tab → p.inbox ∈ mine := by
  intro p hp htab
  have hown : p ∈ (o.roster.parcels m).filter (·.tab = tab) :=
    List.mem_filter.2 ⟨hp, decide_eq_true htab⟩
  rw [Roster.parcels_to, Option.mem_toList, Option.bind_eq_some_iff] at hown
  obtain ⟨s, hs, hparcel⟩ := hown
  obtain ⟨m', -, rfl⟩ := Option.map_eq_some_iff.1 hparcel
  exact h s hs

theorem SitsAmong.step (h : o.SitsAmong tab mine)
    (he : ∀ scope inbox, e = .attach tab scope inbox → inbox ∈ mine) :
    (o.step e).SitsAmong tab mine := by
  intro s hs
  rw [seat_step] at hs
  cases e with
  | attach t scope inbox =>
    rw [Errand.seatAfter] at hs
    split at hs
    · next ht =>
      subst ht
      cases hs
      exact he scope inbox rfl
    · exact h s hs
  | detach t =>
    rw [Errand.seatAfter] at hs
    split at hs
    · cases hs
    · exact h s hs
  | _ => exact h s hs

/-- An errand does the same for a tab in two offices that are the same to it. -/
theorem outlook_step (h : o.outlook tab mine = q.outlook tab mine) (hsits : o.SitsAmong tab mine) :
    (o.step e).outlook tab mine = (q.step e).outlook tab mine := by
  obtain ⟨hseat, hclosed, hgot⟩ := Outlook.mk.inj h
  have hafter : (o.step e).roster.seats.get? tab = (q.step e).roster.seats.get? tab := by
    rw [seat_step, seat_step, hseat]
  cases e with
  | attach t scope inbox => exact Outlook.mk.injEq .. |>.mpr ⟨hafter, hclosed, hgot⟩
  | detach t => exact Outlook.mk.injEq .. |>.mpr ⟨hafter, hclosed, hgot⟩
  | unicast t m =>
    by_cases ht : t = tab
    · subst ht
      refine outlook_put h ?_ fun p hp htab => ?_
      · rw [Roster.unicast, Roster.unicast, hseat]
      · obtain ⟨l, hl, rfl⟩ := List.mem_map.1 hp
        obtain ⟨s, hs, rfl⟩ := Option.map_eq_some_iff.1 (Option.mem_toList.1 hl)
        exact hsits s hs
    · have hforeign : ¬ (Errand.unicast t m).Concerns tab mine := ht
      rw [outlook_step_foreign hforeign, outlook_step_foreign hforeign, h]
  | broadcast m =>
    exact outlook_put h (parcels_to_of_sameTo hseat fun s _ => .refl s.scope m) (hsits.parcels m)
  | closes inbox => simp only [outlook, step, List.filter_cons, hseat, hclosed, hgot]

/-! ## Many errands -/

variable {seat : Option Seat} {xs ys es : List Errand}

/-- Lists of errands that are alike to a tab do the same for it. -/
theorem outlook_run (halike : Alike tab mine seat xs ys)
    (h : o.outlook tab mine = q.outlook tab mine) (hseat : o.roster.seats.get? tab = seat)
    (hsits : o.SitsAmong tab mine)
    (hxs : ∀ e ∈ xs, ∀ scope inbox, e = .attach tab scope inbox → inbox ∈ mine) :
    (o.run xs).outlook tab mine = (q.run ys).outlook tab mine := by
  induction halike generalizing o q with
  | nil => exact h
  | @left _ e xs ys he _ ih =>
    obtain ⟨hfirst, hrest⟩ := List.forall_mem_cons.1 hxs
    have hsame : (o.step e).outlook tab mine = o.outlook tab mine := outlook_step_foreign he
    exact ih (hsame.trans h) ((congrArg Outlook.seat hsame).trans hseat) (hsits.step hfirst) hrest
  | right he _ ih => exact ih (h.trans (outlook_step_foreign he).symm) hseat hsits hxs
  | @own seat e xs ys _ ih =>
    obtain ⟨hfirst, hrest⟩ := List.forall_mem_cons.1 hxs
    have hafter : (o.step e).roster.seats.get? tab = e.seatAfter tab seat := by rw [seat_step, hseat]
    exact ih (outlook_step h hsits) hafter (hsits.step hfirst) hrest
  | @broadcast _ m n xs ys hsame _ ih =>
    have hboth : (o.step (.broadcast m)).outlook tab mine = (q.step (.broadcast n)).outlook tab mine := by
      subst hseat
      exact outlook_put h (parcels_to_of_sameTo (congrArg Outlook.seat h) hsame) (hsits.parcels m)
    exact ih hboth hseat hsits (List.forall_mem_cons.1 hxs).2

/-! ## Inboxes of one tab -/

/-- Some inboxes are for one tab only: no other sits at them, and nothing in them was for another. -/
structure Reserved (o : PostOffice) (tab : TabId) (mine : List Inbox) : Prop where
  seats : ∀ t s, o.roster.seats.get? t = some s → s.inbox ∈ mine → t = tab
  parcels : ∀ p ∈ o.parcels, p.inbox ∈ mine → p.tab = tab

theorem Reserved.put {ps : List Parcel} (h : o.Reserved tab mine)
    (hps : ∀ p ∈ ps, p.inbox ∈ mine → p.tab = tab) : (o.put ps).Reserved tab mine where
  seats := h.seats
  parcels := by
    intro p hp hinbox
    rcases List.mem_append.1 hp with hold | hnew
    · exact h.parcels p hold hinbox
    · exact hps p (List.mem_of_mem_filter hnew) hinbox

theorem Reserved.step (h : o.Reserved tab mine)
    (he : ∀ t scope inbox, e = .attach t scope inbox → inbox ∈ mine → t = tab) :
    (o.step e).Reserved tab mine := by
  have hseat := fun t => o.seat_step t e
  cases e with
  | attach t scope inbox =>
    refine ⟨fun t' s hs hinbox => ?_, h.parcels⟩
    rw [hseat, Errand.seatAfter] at hs
    split at hs
    · next ht =>
      subst ht
      cases hs
      exact he t scope inbox rfl hinbox
    · exact h.seats t' s hs hinbox
  | detach t =>
    refine ⟨fun t' s hs hinbox => ?_, h.parcels⟩
    rw [hseat, Errand.seatAfter] at hs
    split at hs
    · cases hs
    · exact h.seats t' s hs hinbox
  | unicast t m =>
    refine h.put fun p hp hinbox => ?_
    obtain ⟨l, hl, rfl⟩ := List.mem_map.1 hp
    obtain ⟨s, hs, rfl⟩ := Option.map_eq_some_iff.1 (Option.mem_toList.1 hl)
    exact h.seats t s hs hinbox
  | broadcast m =>
    refine h.put fun p hp hinbox => ?_
    obtain ⟨⟨t, s⟩, hmem, hparcel⟩ := List.mem_filterMap.1 hp
    obtain ⟨m', -, rfl⟩ := Option.map_eq_some_iff.1 hparcel
    exact h.seats t s ((KeyedMap.get?_eq_some_iff ..).2 hmem) hinbox
  | closes inbox => exact ⟨h.seats, h.parcels⟩

theorem Reserved.run (h : o.Reserved tab mine)
    (hes : ∀ e ∈ es, ∀ t scope inbox, e = .attach t scope inbox → inbox ∈ mine → t = tab) :
    (o.run es).Reserved tab mine := by
  induction es generalizing o with
  | nil => exact h
  | cons e es ih =>
    obtain ⟨hfirst, hrest⟩ := List.forall_mem_cons.1 hes
    exact ih (h.step hfirst) hrest

/-- What was heard from such an inbox is what was put into it for the tab. -/
theorem Reserved.heard {inbox : Inbox} (h : o.Reserved tab mine) (hinbox : inbox ∈ mine) :
    o.heard inbox = ((o.outlook tab mine).got.filter (·.inbox = inbox)).map (·.message) := by
  have hown : o.parcels.filter (·.inbox = inbox) =
      (o.parcels.filter (·.tab = tab)).filter (·.inbox = inbox) := by
    rw [List.filter_filter]
    refine List.filter_congr fun p hp => ?_
    by_cases hp' : p.inbox = inbox
    · simp [hp', h.parcels p hp (hp'.symm ▸ hinbox)]
    · simp [hp']
  rw [PostOffice.heard, letters, List.filter_map, List.map_map]
  exact congrArg (List.map (·.message)) hown

/-! ## The law -/

/-- Two runs that are alike to a tab put the same messages into inboxes for it, in the same order,
whatever else is done and whichever other tabs there are. So an inbox that no other tab
attaches with holds the same in both. -/
theorem what_a_tab_gets_is_its_own_affair (halike : Alike tab (Errand.inboxesOf tab xs) none xs ys) :
    let mine := Errand.inboxesOf tab xs
    let one := run {} xs
    let two := run {} ys
    one.parcels.filter (·.tab = tab) = two.parcels.filter (·.tab = tab) ∧
    ((∀ t, t ≠ tab → ∀ inbox ∈ Errand.inboxesOf t (xs ++ ys), inbox ∉ mine) →
      ∀ inbox ∈ mine, one.heard inbox = two.heard inbox) := by
  intro mine one two
  have hsits : SitsAmong {} tab mine := by
    intro s hs
    cases hs
  have hsame : one.outlook tab mine = two.outlook tab mine :=
    outlook_run halike rfl rfl hsits fun _ hmem scope _ he =>
      Errand.mem_inboxesOf.2 ⟨scope, he ▸ hmem⟩
  refine ⟨congrArg Outlook.got hsame, fun hothers inbox hinbox => ?_⟩
  have hown : ∀ e ∈ xs ++ ys, ∀ t scope inbox, e = .attach t scope inbox → inbox ∈ mine → t = tab := by
    rintro e hmem t scope inbox rfl hmine
    by_contra ht
    exact hothers t ht inbox (Errand.mem_inboxesOf.2 ⟨scope, hmem⟩) hmine
  have hnew : Reserved {} tab mine := by
    constructor
    · intro t s hs
      cases hs
    · intro p hp
      cases hp
  have hone : one.Reserved tab mine :=
    hnew.run fun e he => hown e (List.mem_append_left _ he)
  have htwo : two.Reserved tab mine :=
    hnew.run fun e he => hown e (List.mem_append_right _ he)
  rw [hone.heard hinbox, htwo.heard hinbox, hsame]

/-- Somebody looks at a puzzle. -/
def watching (puzzle : Int64) (user : String) : PuzzleId × KeyedMap String Bool :=
  (⟨puzzle⟩, .ofList [(user, true)])

/-- The first tab has an eye on puzzle 3 and then on everything; a second one comes and goes. -/
def crowded : List Errand :=
  [.attach ⟨1⟩ (some ⟨3⟩) 0, .attach ⟨2⟩ none 1,
    .broadcast (.presence (.ofList [watching 3 "alice", watching 4 "bob"])), .closes 1,
    .broadcast (.presence (.ofList [watching 4 "bob"])), .detach ⟨2⟩,
    .unicast ⟨1⟩ (.status .connected), .attach ⟨1⟩ none 2, .broadcast (.status .dead), .detach ⟨1⟩,
    .broadcast (.status .dead)]

/-- The same for the first tab, while a third one has the same eye, and nobody looks at puzzle 4. -/
def calm : List Errand :=
  [.attach ⟨1⟩ (some ⟨3⟩) 0, .broadcast (.presence (.ofList [watching 3 "alice"])),
    .attach ⟨3⟩ (some ⟨3⟩) 3, .broadcast (.presence .empty), .unicast ⟨1⟩ (.status .connected),
    .unicast ⟨3⟩ (.status .dead), .attach ⟨1⟩ none 2, .broadcast (.status .dead), .detach ⟨1⟩,
    .broadcast (.status .connected)]

theorem crowded_alike_calm : Alike ⟨1⟩ (Errand.inboxesOf ⟨1⟩ crowded) none crowded calm := by
  refine .own <| .left (by decide) <| .broadcast ?_ <| .left (by decide) <| .right (by decide) <|
    .broadcast ?_ <| .left (by decide) <| .own <| .right (by decide) <| .own <| .own <| .own <|
    .broadcast ?_ .nil
  · rintro s ⟨⟩
    exact .inr ⟨_, _, rfl, rfl, by decide⟩
  · rintro s ⟨⟩
    exact .inr ⟨_, _, rfl, rfl, by decide⟩
  · rintro s ⟨⟩

theorem the_crowd_is_not_noticed :
    (run {} crowded).parcels.filter (·.tab = ⟨1⟩) = (run {} calm).parcels.filter (·.tab = ⟨1⟩) ∧
    (run {} crowded).heard 0 = (run {} calm).heard 0 ∧
    (run {} calm).heard 0 = [.presence (.ofList [watching 3 "alice"]), .status .connected] ∧
    (run {} calm).heard 2 = [.status .dead] := by
  obtain ⟨hgot, hheard⟩ := what_a_tab_gets_is_its_own_affair crowded_alike_calm
  refine ⟨hgot, hheard ?_ 0 (by decide), by decide, by decide⟩
  intro t ht inbox hinbox
  obtain ⟨scope, hmem⟩ := Errand.mem_inboxesOf.1 hinbox
  have hthree : t = ⟨1⟩ ∨ inbox = 1 ∨ inbox = 3 := by
    simp only [crowded, calm, List.mem_append, List.mem_cons, Errand.attach.injEq, reduceCtorEq,
      List.not_mem_nil] at hmem
    tauto
  rcases hthree with rfl | rfl | rfl
  · exact absurd rfl ht
  · decide
  · decide

end PostOffice

end HuntBoard
