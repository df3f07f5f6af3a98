-- A tab at work: what happens to it turn by turn, where a write and its outcome
-- go by one name, and what each turn does to the tab and to its writes under way.
import HuntBoard.Proofs.WriteRace
import Mathlib.Algebra.Group.Nat.Defs
import Mathlib.Data.Fintype.EquivFin

namespace HuntBoard

open TabEffect

/-! ## Turns -/

/-- What happens to a tab. The name of a write ties its outcome to it; the tab
itself does not know it. -/
inductive Turn where
  /-- The hub speaks. -/
  | heard (m : HubMessage)
  /-- The hub will never speak again. -/
  | hubLost
  | activity (subject : PuzzleId) (active : Bool)
  /-- The board is brought up to date. -/
  | refreshed (now : Instant)
  | written (name : Nat) (request : WriteRequest) (optimistic : Bool)
  /-- A write has its outcome. -/
  | settled (name : Nat) (outcome : Except WriteFault WriteReply)

namespace Turn

/-- The name of the write that a turn is about. -/
def name? : Turn → Option Nat
  | written name _ _ | settled name _ => some name
  | _ => none

/-- The write is shown before it has an outcome. -/
def isShownAtOnce : Turn → Bool
  | written _ request optimistic => optimistic && request.edit?.isSome
  | _ => false

end Turn

/-- A tab and its writes under way, the oldest first, each with its name. -/
structure Desk where
  tab : Tab
  writes : List (Nat × OpenWrite) := []

namespace Desk

def ofSnapshot (s : Snapshot) : Desk := { tab := .ofSnapshot s }

/-- The write under way that goes by a name. -/
def write? (d : Desk) (name : Nat) : Option OpenWrite := (d.writes.find? (·.1 = name)).map (·.2)

/-- Only what is under way has an outcome, and it has one only once. -/
def turn (d : Desk) : Turn → Desk
  | .heard m => { d with tab := (d.tab.step (.message m)).1 }
  | .hubLost => { d with tab := (d.tab.step .hubLost).1 }
  | .activity subject active => { d with tab := (d.tab.step (.activity subject active)).1 }
  | .refreshed now => { d with tab := d.tab.refresh now }
  | .written name request optimistic =>
    let o := d.tab.step (.write request optimistic)
    ⟨o.1, d.writes ++ (asks o.2).map (name, ·)⟩
  | .settled name outcome =>
    match d.write? name with
    | some w => ⟨(d.tab.step (.settled w outcome)).1, d.writes.eraseP (·.1 = name)⟩
    | none => d

/-- Take turns in order. -/
def play (d : Desk) (ts : List Turn) : Desk := ts.foldl turn d

@[simp] theorem play_cons (d : Desk) (t : Turn) (ts : List Turn) :
    d.play (t :: ts) = (d.turn t).play ts := rfl

theorem play_append (d : Desk) (ts us : List Turn) : d.play (ts ++ us) = (d.play ts).play us :=
  List.foldl_append

end Desk

/-! ## One turn -/

/-- What the stream and the settings do to what a tab holds. All else that is not
about a write leaves it as it is. -/
def Holding.heed (h : Holding) : Turn → Holding
  | .heard (.sync e) => h.sync e
  | .heard (.settings s) => { h with replica := h.replica.setSettings s }
  | _ => h

namespace Tab

variable (t : Tab)

theorem setConnection_holding (s : LinkState) : (t.setConnection s).1.holding = t.holding := by
  unfold setConnection
  dsimp only [andThen_fst]
  split
  · rw [(reload_frame _ _).1]
    rfl
  · rfl

theorem asks_hear (m : HubMessage) : asks (t.hear m).2 = [] := by
  cases m with
  | sync e => exact t.asks_sync e
  | status s => exact t.asks_setConnection s
  | _ => rfl

theorem refresh_holding (now : Instant) : (t.refresh now).holding = t.holding := by
  unfold refresh
  split <;> rfl

/-- A write is shown at once, under the tab's next number, or only asked for. -/
theorem write_cases (request : WriteRequest) (optimistic : Bool) :
    (∃ e, optimistic = true ∧ request.edit? = some e ∧
      (t.write request optimistic).1.holding = ⟨t.replica, (t.overlay.addPending e).1⟩ ∧
      asks (t.write request optimistic).2 =
        [⟨request, some (.pending t.overlay.nextPending)⟩]) ∨
    ((optimistic && request.edit?.isSome) = false ∧
      (t.write request optimistic).1.holding = t.holding ∧
      asks (t.write request optimistic).2 = [⟨request, none⟩]) := by
  unfold write
  cases optimistic with
  | false => exact Or.inr ⟨rfl, rfl, rfl⟩
  | true =>
    cases he : request.edit? with
    | none => exact Or.inr ⟨rfl, rfl, rfl⟩
    | some e => exact Or.inl ⟨e, rfl, rfl, rfl, rfl⟩

end Tab

namespace Desk

variable {d : Desk} {t : Turn}

theorem turn_of_nameless (ht : t.name? = none) :
    (d.turn t).tab.holding = d.tab.holding.heed t ∧ (d.turn t).writes = d.writes := by
  cases t with
  | heard m =>
    refine ⟨?_, rfl⟩
    cases m with
    | sync e => exact d.tab.sync_holding e
    | status s => exact d.tab.setConnection_holding s
    | _ => rfl
  | hubLost => exact ⟨Tab.setConnection_holding { d.tab with attached := false } _, rfl⟩
  | activity subject active => exact ⟨rfl, rfl⟩
  | refreshed now => exact ⟨d.tab.refresh_holding now, rfl⟩
  | written name request optimistic => simp [Turn.name?] at ht
  | settled name outcome => simp [Turn.name?] at ht

theorem turn_written (d : Desk) (name : Nat) (request : WriteRequest) (optimistic : Bool) :
    (∃ e, optimistic = true ∧ request.edit? = some e ∧
      (d.turn (.written name request optimistic)).tab.holding =
        ⟨d.tab.replica, (d.tab.overlay.addPending e).1⟩ ∧
      (d.turn (.written name request optimistic)).writes =
        d.writes ++ [(name, ⟨request, some (.pending d.tab.overlay.nextPending)⟩)]) ∨
    ((Turn.written name request optimistic).isShownAtOnce = false ∧
      (d.turn (.written name request optimistic)).tab.holding = d.tab.holding ∧
      (d.turn (.written name request optimistic)).writes =
        d.writes ++ [(name, ⟨request, none⟩)]) := by
  rcases d.tab.write_cases request optimistic with ⟨e, ho, he, hh, ha⟩ | ⟨hq, hh, ha⟩
  · exact Or.inl ⟨e, ho, he, hh, by simp [turn, Tab.step, ha]⟩
  · exact Or.inr ⟨hq, hh, by simp [turn, Tab.step, ha]⟩

theorem turn_settled {name : Nat} {w : OpenWrite} (hw : d.write? name = some w)
    (outcome : Except WriteFault WriteReply) :
    (d.turn (.settled name outcome)).tab.holding = d.tab.holding.settle ⟨w, outcome⟩ ∧
    (d.turn (.settled name outcome)).writes = d.writes.eraseP (·.1 = name) := by
  have hturn : d.turn (.settled name outcome) =
      ⟨(d.tab.step (.settled w outcome)).1, d.writes.eraseP (·.1 = name)⟩ := by
    simp only [turn, hw]
  rw [hturn]
  exact ⟨d.tab.settled_holding ⟨w, outcome⟩, rfl⟩

theorem turn_settled_of_none {name : Nat} (hw : d.write? name = none)
    (outcome : Except WriteFault WriteReply) : d.turn (.settled name outcome) = d := by
  simp only [turn, hw]

/-- A write under way stands once among the others, and only it goes when it settles. -/
theorem writes_split {name : Nat} {w : OpenWrite} (hw : d.write? name = some w) :
    ∃ before after, d.writes = before ++ (name, w) :: after ∧
      d.writes.eraseP (·.1 = name) = before ++ after := by
  obtain ⟨⟨name', w'⟩, hfind, rfl⟩ := Option.map_eq_some_iff.1 hw
  obtain ⟨hname, before, after, hsplit, hbefore⟩ := List.find?_eq_some_iff_append.1 hfind
  obtain rfl : name' = name := by simpa using hname
  refine ⟨before, after, hsplit, ?_⟩
  rw [hsplit, List.eraseP_append_right _ fun x hx => by simpa using hbefore x hx]
  simp

theorem mem_of_write? {name : Nat} {w : OpenWrite} (hw : d.write? name = some w) :
    (name, w) ∈ d.writes := by
  obtain ⟨before, after, hsplit, -⟩ := writes_split hw
  simp [hsplit]

/-- What a turn can do to a desk. -/
inductive Move (d : Desk) (t : Turn) (o : Desk) : Prop where
  | heeded (nameless : t.name? = none) (holding : o.tab.holding = d.tab.holding.heed t)
      (writes : o.writes = d.writes)
  | shown (name : Nat) (request : WriteRequest) (e : Edit) (turn : t = .written name request true)
      (edit : request.edit? = some e)
      (holding : o.tab.holding = ⟨d.tab.replica, (d.tab.overlay.addPending e).1⟩)
      (writes : o.writes =
        d.writes ++ [(name, ⟨request, some (.pending d.tab.overlay.nextPending)⟩)])
  | asked (name : Nat) (request : WriteRequest) (optimistic : Bool)
      (turn : t = .written name request optimistic) (hidden : t.isShownAtOnce = false)
      (holding : o.tab.holding = d.tab.holding)
      (writes : o.writes = d.writes ++ [(name, ⟨request, none⟩)])
  | settled (name : Nat) (w : OpenWrite) (outcome : Except WriteFault WriteReply)
      (turn : t = .settled name outcome) (write : d.write? name = some w)
      (holding : o.tab.holding = d.tab.holding.settle ⟨w, outcome⟩)
      (writes : o.writes = d.writes.eraseP (·.1 = name))
  | unknown (name : Nat) (outcome : Except WriteFault WriteReply)
      (turn : t = .settled name outcome) (write : d.write? name = none) (same : o = d)

theorem turn_move (d : Desk) (t : Turn) : d.Move t (d.turn t) := by
  cases hname : t.name? with
  | none =>
    obtain ⟨hh, hws⟩ := turn_of_nameless (d := d) hname
    exact .heeded hname hh hws
  | some name =>
    cases t with
    | written name request optimistic =>
      rcases d.turn_written name request optimistic with ⟨e, rfl, he, hh, hws⟩ | ⟨hq, hh, hws⟩
      · exact .shown name request e rfl he hh hws
      · exact .asked name request optimistic rfl hq hh hws
    | settled name outcome =>
      cases hw : d.write? name with
      | none => exact .unknown name outcome rfl hw (turn_settled_of_none hw outcome)
      | some w =>
        obtain ⟨hh, hws⟩ := turn_settled hw outcome
        exact .settled name w outcome rfl hw hh hws
    | _ => simp [Turn.name?] at hname

/-! ## Many turns -/

/-- A write is known to the tab by a number of its own, if by any. -/
theorem turn_numbered (hd : ∀ x ∈ d.writes, x.2.Numbered) (t : Turn) :
    ∀ x ∈ (d.turn t).writes, x.2.Numbered := by
  cases d.turn_move t with
  | heeded _ _ hws => rwa [hws]
  | shown name request e _ _ _ hws =>
    rw [hws, List.forall_mem_append, List.forall_mem_singleton]
    exact ⟨hd, fun key hkey => ⟨_, (Option.some.inj hkey).symm⟩⟩
  | asked name request optimistic _ _ _ hws =>
    rw [hws, List.forall_mem_append, List.forall_mem_singleton]
    exact ⟨hd, fun key hkey => by simp at hkey⟩
  | settled name w outcome _ _ _ hws =>
    rw [hws]
    exact fun x hx => hd x (List.mem_of_mem_eraseP hx)
  | unknown name outcome _ _ hsame => rwa [hsame]

theorem play_numbered (hd : ∀ x ∈ d.writes, x.2.Numbered) (ts : List Turn) :
    ∀ x ∈ (d.play ts).writes, x.2.Numbered := by
  induction ts generalizing d with
  | nil => exact hd
  | cons t ts ih => exact ih (turn_numbered hd t)

/-! ## All tabs -/

/-- If the names of the writes under way differ, any of the writes can settle by its name. -/
theorem exists_turn_settled (hnames : (d.writes.map (·.1)).Nodup) {w : OpenWrite}
    (hw : w ∈ d.writes.map (·.2)) (outcome : Except WriteFault WriteReply) :
    ∃ t : Turn, (d.turn t).tab = (d.tab.step (.settled w outcome)).1 ∧
      (d.turn t).writes.map (·.2) = (d.writes.map (·.2)).erase w ∧
      ((d.turn t).writes.map (·.1)).Nodup := by
  obtain ⟨x, hx, hxw⟩ := List.mem_map.1 hw
  obtain ⟨⟨name, w'⟩, before, after, hbefore, hp, hsplit, herase⟩ :=
    List.exists_of_eraseP (p := fun x => x.2 == w) hx (by simpa using hxw)
  obtain rfl : w' = w := by simpa using hp
  rw [hsplit, List.map_append, List.map_cons, List.nodup_append, List.nodup_cons] at hnames
  have hother : ∀ x ∈ before, x.1 ≠ name := fun x hx h =>
    hnames.2.2 x.1 (List.mem_map_of_mem hx) name (by simp) h
  have hfind : d.write? name = some w' := by
    rw [write?, hsplit, List.find?_append,
      List.find?_eq_none.2 fun x hx => by simpa using hother x hx]
    simp
  have hrest : d.writes.eraseP (·.1 = name) = before ++ after := by
    rw [hsplit, List.eraseP_append_right _ fun x hx => by simpa using hother x hx]
    simp
  have hturn : d.turn (.settled name outcome) =
      ⟨(d.tab.step (.settled w' outcome)).1, before ++ after⟩ := by
    simp only [turn, hfind, hrest]
  have hfirst : w' ∉ before.map (·.2) := by
    simpa [List.mem_map] using fun (x : Nat) hx => hbefore (x, w') hx
  refine ⟨.settled name outcome, by rw [hturn], ?_, ?_⟩
  · rw [hturn, hsplit, List.map_append, List.map_append, List.map_cons,
      List.erase_append_right _ hfirst, List.erase_cons_head]
  · rw [hturn, List.map_append, List.nodup_append]
    exact ⟨hnames.1, hnames.2.1.2, fun a ha b hb => hnames.2.2 a ha b (List.mem_cons_of_mem _ hb)⟩

/-- Any other input of a tab is a turn, where a new write gets a new name. -/
theorem exists_turn (hnames : (d.writes.map (·.1)).Nodup) {i : TabInput}
    (hi : ∀ w outcome, i = .settled w outcome → w ∈ d.writes.map (·.2)) :
    ∃ t : Turn, (d.turn t).tab = (d.tab.step i).1 ∧
      (d.turn t).writes.map (·.2) = d.tab.underWay (d.writes.map (·.2)) i ∧
      ((d.turn t).writes.map (·.1)).Nodup := by
  cases i with
  | message m =>
    refine ⟨.heard m, rfl, ?_, hnames⟩
    simp [turn, Tab.underWay, Tab.unsettled, Tab.step, Tab.asks_hear]
  | hubLost =>
    refine ⟨.hubLost, rfl, ?_, hnames⟩
    simp [turn, Tab.underWay, Tab.unsettled, Tab.step, Tab.hubLost, Tab.asks_setConnection]
  | write request optimistic =>
    obtain ⟨name, hname⟩ := Infinite.exists_notMem_finset (d.writes.map (·.1)).toFinset
    rw [List.mem_toFinset] at hname
    refine ⟨.written name request optimistic, rfl, ?_, ?_⟩
    · simp [turn, Tab.underWay, Tab.unsettled, Function.comp_def]
    · have hnew : ∃ w, (d.turn (.written name request optimistic)).writes =
          d.writes ++ [(name, w)] := by
        rcases d.turn_written name request optimistic with ⟨_, _, _, _, hws⟩ | ⟨_, _, hws⟩ <;>
          exact ⟨_, hws⟩
      obtain ⟨w, hws⟩ := hnew
      rw [hws, List.map_append, List.nodup_append]
      refine ⟨hnames, List.nodup_singleton _, fun a ha b hb hab => ?_⟩
      obtain rfl : b = name := List.mem_singleton.1 hb
      exact hname (hab ▸ ha)
  | settled w outcome =>
    obtain ⟨t, ht, hws, hnames'⟩ := exists_turn_settled hnames (hi w outcome rfl) outcome
    refine ⟨t, ht, ?_, hnames'⟩
    rw [hws]
    simp [Tab.underWay, Tab.unsettled, Tab.step, Tab.asks_settled]
  | activity subject active =>
    exact ⟨.activity subject active, rfl, (List.append_nil _).symm, hnames⟩

end Desk

/-- Every tab that can come to be stands at some desk, with its writes under way. -/
theorem Tab.Reached.exists_desk {t : Tab} {ws : List OpenWrite} (h : Tab.Reached t ws) :
    ∃ s ts, ((Desk.ofSnapshot s).play ts).tab = t ∧
      ((Desk.ofSnapshot s).play ts).writes.map (·.2) = ws := by
  suffices hd : ∃ s ts, ((Desk.ofSnapshot s).play ts).tab = t ∧
      ((Desk.ofSnapshot s).play ts).writes.map (·.2) = ws ∧
      (((Desk.ofSnapshot s).play ts).writes.map (·.1)).Nodup by
    obtain ⟨s, ts, ht, hws, -⟩ := hd
    exact ⟨s, ts, ht, hws⟩
  induction h with
  | opened s => exact ⟨s, [], rfl, rfl, List.nodup_nil⟩
  | step _ i hi ih =>
    obtain ⟨s, ts, rfl, rfl, hnames⟩ := ih
    obtain ⟨t, ht, hws, hnames'⟩ := Desk.exists_turn hnames hi
    exact ⟨s, ts ++ [t], by rw [Desk.play_append]; exact ⟨ht, hws, hnames'⟩⟩
  | refreshed _ now ih =>
    obtain ⟨s, ts, rfl, rfl, hnames⟩ := ih
    exact ⟨s, ts ++ [.refreshed now], by rw [Desk.play_append]; exact ⟨rfl, rfl, hnames⟩⟩

end HuntBoard
