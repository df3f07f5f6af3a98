-- The table of locks keeps the leases: act by act it gives out the same, refuses the same, and the
-- same waits are over. So what holds of leases holds of the locks.
import HuntBoard.LockTable
import HuntBoard.Proofs.LeaseLedger

namespace HuntBoard

namespace LockTable

variable {t : LockTable} {s : Leases} {g : Guard} {name : String} {n : LeaseNumber}

/-! ## Locks -/

theorem isLocked_append (entries : KeyedMap String LockNumber) (locked : List Bool) (n : LockNumber) :
    isLocked ⟨entries, locked ++ [true]⟩ n ↔ n = locked.length ∨ isLocked ⟨entries, locked⟩ n := by
  unfold isLocked
  rcases Nat.lt_trichotomy n locked.length with hlt | rfl | hgt
  · simp [List.getElem?_append_left hlt, Nat.ne_of_lt hlt]
  · simp
  · have hold : locked.length ≤ n := Nat.le_of_lt hgt
    have hnew : (locked ++ [true]).length ≤ n := by
      rw [List.length_append, List.length_singleton]
      omega
    simp [List.getElem?_eq_none hold, List.getElem?_eq_none hnew, Nat.ne_of_gt hgt]

theorem isLocked_drop (t : LockTable) (g : Guard) (n : LockNumber) :
    (t.drop g).isLocked n ↔ n ≠ g.lock ∧ t.isLocked n := by
  unfold isLocked drop
  by_cases hn : n = g.lock
  · subst hn
    by_cases hlt : g.lock < t.locked.length <;> simp [hlt]
  · simp [List.getElem?_set_ne (Ne.symm hn), hn]

/-! ## Locks and leases -/

/-- A table keeps leases when the locks in it are those of the leases that are held, a lock was made
for each lease that was given out, and those that are locked are the locks of leases that are held. -/
structure Keeps (t : LockTable) (s : Leases) : Prop where
  entries : t.entries = s.held
  made : t.locked.length = s.next
  locked : ∀ n, t.isLocked n = s.isAlive n

theorem keeps_empty : empty.Keeps .empty := ⟨rfl, rfl, fun _ => rfl⟩

theorem Keeps.isLocked_of_held (h : t.Keeps s) (hn : s.held.get? name = some n) : t.isLocked n := by
  rw [h.locked, Leases.isAlive_iff]
  exact ⟨name, hn⟩

/-! ## One act -/

/-- In the table there are no open locks, so a lock that is found there is locked. -/
theorem Keeps.hold_of_held (h : t.Keeps s) (hn : s.held.get? name = some n) :
    t.hold name = (t, .error ⟨name⟩) := by
  have hentry : t.entry name = (t, n) := by
    unfold entry
    rw [h.entries, hn]
  unfold hold
  rw [hentry]
  simp [tryLock, h.isLocked_of_held hn]

/-- For a name that has no lock one is made, and the guard is for that. -/
theorem Keeps.hold_of_free (h : t.Keeps s) (hn : s.held.get? name = none) :
    t.hold name = ({ entries := s.held.insert name s.next, locked := t.locked ++ [true] },
      .ok ⟨name, s.next⟩) := by
  have hentry : t.entry name =
      ({ entries := s.held.insert name s.next, locked := t.locked ++ [false] }, s.next) := by
    unfold entry
    rw [h.entries, hn, h.made]
  unfold hold
  rw [hentry]
  simp [tryLock, isLocked, ← h.made]

theorem Keeps.take (h : t.Keeps s) (hn : s.held.get? name = none) :
    Keeps { entries := s.held.insert name s.next, locked := t.locked ++ [true] } (s.take name).1 where
  entries := by simp [Leases.take, KeyedMap.contains, hn]
  made := by simp [Leases.take, KeyedMap.contains, hn, h.made]
  locked := by
    intro k
    rw [Bool.eq_iff_iff, isLocked_append, s.isAlive_take hn, h.made, ← h.locked]
    rfl

/-- A guard is dropped, and with it the lease is given back: no other name has its lock. -/
theorem Keeps.drop (h : t.Keeps s) (hnames : s.Names g.lock g.name)
    (hg : s.held.get? g.name = some g.lock) : (t.drop g).Keeps (s.release g.lock) where
  entries := by
    apply KeyedMap.ext_get?
    intro x
    unfold LockTable.drop
    rw [h.entries, Leases.get?_release]
    by_cases hx : x = g.name
    · subst hx
      rw [KeyedMap.get?_erase_self, if_pos hg]
    · rw [KeyedMap.get?_erase_ne _ hx, if_neg fun hother => hx (hnames.eq_name x hother)]
  made := by simp [LockTable.drop, Leases.release, h.made]
  locked := by
    intro k
    rw [Bool.eq_iff_iff, isLocked_drop, Leases.isAlive_release, h.locked]

theorem Keeps.isHeld (h : t.Keeps s) (name : String) : t.isHeld name = s.isHeld name := by
  unfold LockTable.isHeld Leases.isHeld KeyedMap.contains
  rw [h.entries]
  cases hn : s.held.get? name with
  | none => rfl
  | some n => simp [h.isLocked_of_held hn]

theorem Keeps.isOver (h : t.Keeps s) (w : Leases.Wait) : t.isOver w = s.isOver w := by
  cases w with
  | none => rfl
  | some n => exact congrArg (! ·) (h.locked n)

end LockTable

/-! ## Acts at the table -/

namespace Leases

/-- The table of locks, and what is noted of all that is done with it. -/
structure LockBook where
  table : LockTable := {}
  /-- The guards that were handed out. -/
  guards : List Guard := []
  /-- The places of those that were not dropped, among the guards of their name. -/
  out : List (String × Nat) := []
  waits : List (String × Option LockNumber) := []
  answers : List (String × Bool) := []

namespace LockBook

def note (b : LockBook) (name : String) (answer : Bool) : LockBook :=
  { b with answers := b.answers ++ [(name, answer)] }

def guardsOf (b : LockBook) (name : String) : List Guard := b.guards.filter (·.name = name)

def take (b : LockBook) (name : String) : LockBook :=
  match b.table.hold name with
  | (table, .ok g) =>
    note { b with
      table
      guards := b.guards ++ [g]
      out := b.out ++ [(name, (b.guardsOf name).length)] } name true
  | (table, .error _) => note { b with table } name false

/-- A guard can be dropped once. -/
def giveBack (b : LockBook) (name : String) (place : Nat) : LockBook :=
  match (b.guardsOf name)[place]? with
  | some g =>
    if b.out.contains (name, place) then
      note { b with table := b.table.drop g, out := b.out.filter (· ≠ (name, place)) } name true
    else b.note name false
  | none => b.note name false

def wait (b : LockBook) (name : String) : LockBook :=
  note { b with waits := b.waits ++ [(name, b.table.released name)] } name
    (b.table.isOver (b.table.released name))

def act (b : LockBook) : Act → LockBook
  | .take name => b.take name
  | .giveBack name place => b.giveBack name place
  | .wait name => b.wait name
  | .ask name => b.note name (b.table.isHeld name)

/-- Which of those who wait under a name, in the order they came, have nothing to wait for any more. -/
def finished (b : LockBook) (name : String) : List Bool := (under name b.waits).map b.table.isOver

/-- A book and a ledger tell the same of what was done. -/
structure Tells (b : LockBook) (l : Ledger) : Prop where
  table : b.table.Keeps l.leases
  handed : l.handed = b.guards.map fun g => (g.name, g.lock)
  out : b.out = l.out
  waits : b.waits = l.waits
  answers : b.answers = l.answers

variable {b : LockBook} {l : Ledger} {s : Alone} {name : String}

theorem Tells.under_handed (h : b.Tells l) (name : String) :
    under name l.handed = (b.guardsOf name).map (·.lock) := by
  rw [h.handed, under, guardsOf, List.filter_map, List.map_map]
  rfl

theorem Tells.note (h : b.Tells l) (name : String) (answer : Bool) :
    (b.note name answer).Tells (l.note name answer) :=
  ⟨h.table, h.handed, h.out, h.waits, by simp [LockBook.note, Ledger.note, h.answers]⟩

theorem Tells.take (h : b.Tells l) (name : String) : (b.take name).Tells (l.take name) := by
  cases hn : l.leases.held.get? name with
  | some n =>
    rw [Ledger.take_of_held hn, LockBook.take, h.table.hold_of_held hn]
    exact h.note name false
  | none =>
    rw [Ledger.take_of_free hn, LockBook.take, h.table.hold_of_free hn]
    apply Tells.note
    refine ⟨h.table.take hn, ?_, ?_, h.waits, h.answers⟩
    · simp [h.handed]
    · simp [h.out, h.under_handed]

theorem Tells.giveBack (h : b.Tells l) (hl : l.Sound) (hs : l.Shows name s) (place : Nat) :
    (b.giveBack name place).Tells (l.giveBack name place) := by
  have hplace : (under name l.handed)[place]? = (b.guardsOf name)[place]?.map (·.lock) := by
    rw [h.under_handed, List.getElem?_map]
  unfold LockBook.giveBack
  cases hg : (b.guardsOf name)[place]? with
  | none =>
    rw [hg] at hplace
    rw [Ledger.giveBack_of_none hplace]
    exact h.note name false
  | some g =>
    rw [hg, Option.map_some] at hplace
    have hname : g.name = name := by
      simpa using (List.mem_filter.1 (List.mem_of_getElem? hg)).2
    have hnames := hl.names_of_place hplace
    have hheld := hs.held_eq_iff hl hplace
    rw [Ledger.giveBack_of_some hplace, h.out]
    simp only [List.contains_iff_mem]
    by_cases hout : (name, place) ∈ l.out
    · have hown := hheld.2 (hs.mem_out_iff.1 hout)
      rw [if_pos hout, decide_eq_true hout]
      apply Tells.note
      subst hname
      exact ⟨h.table.drop hnames hown, h.handed, rfl, h.waits, h.answers⟩
    · -- The guard was dropped before, and so its lease is held under no name.
      have hnone : ∀ x, l.leases.held.get? x ≠ some g.lock := by
        intro x hx
        obtain rfl := hnames.eq_name x hx
        exact hout (hs.mem_out_iff.2 (hheld.1 hx))
      have hkept : l.out.filter (· ≠ (name, place)) = l.out := by
        rw [List.filter_eq_self]
        intro e he
        have hne : e ≠ (name, place) := fun heq => hout (heq ▸ he)
        exact decide_eq_true hne
      rw [if_neg hout, release_of_not_held _ hnone, hkept, decide_eq_false hout]
      exact h.note name false

theorem Tells.wait (h : b.Tells l) (name : String) : (b.wait name).Tells (l.wait name) := by
  have hlock : b.table.released name = l.leases.waitFor name := congrArg (·.get? name) h.table.entries
  unfold LockBook.wait Ledger.wait
  rw [hlock, h.table.isOver]
  apply Tells.note
  exact ⟨h.table, h.handed, h.out, by rw [h.waits], h.answers⟩

theorem Tells.act (h : b.Tells l) (hl : l.Sound) {a : Act} (hs : l.Shows a.name s) :
    (b.act a).Tells (l.act a) := by
  cases a with
  | take name => exact h.take name
  | giveBack name place => exact h.giveBack hl hs place
  | wait name => exact h.wait name
  | ask name =>
    change (b.note name (b.table.isHeld name)).Tells (l.note name (l.leases.isHeld name))
    rw [h.table.isHeld]
    exact h.note name _

theorem Tells.finished_eq (h : b.Tells l) (name : String) : b.finished name = l.finished name := by
  unfold LockBook.finished Ledger.finished
  rw [h.waits, funext h.table.isOver]

end LockBook

/-- What is noted of acts at a table without locks. -/
def lockBook (acts : List Act) : LockBook := acts.foldl LockBook.act {}

/-- The table of locks keeps the leases, whatever is done. -/
theorem tells_lockBook (acts : List Act) : (lockBook acts).Tells (ledger acts) := by
  induction acts using List.reverseRecOn with
  | nil => exact ⟨LockTable.keeps_empty, rfl, rfl, rfl, rfl⟩
  | append_singleton acts a ih =>
    have hbook : lockBook (acts ++ [a]) = (lockBook acts).act a := by
      simp [lockBook, List.foldl_append]
    rw [hbook, ledger_concat]
    exact ih.act (sound_ledger acts) (shows_alone acts a.name)

/-! ## The law -/

/-- Of the leases that were handed out under a name at most one was not given back; the name can be
taken when there is none, and is held when there is one. Whoever waits for a lease that is out waits
until that lease is given back, and no longer even if the name is taken again; whoever waits while
none is out has nothing to wait for. The answers to all acts under the name, and how its waits end,
are the same without all that is done under other names; and the table of locks, from which the
leases are given out, has the same guards out, the same answers and the same waits over. -/
theorem a_lease_is_out_once_and_its_waits_end_with_it (acts : List Act) (name : String) :
    let l := ledger acts
    let out := under name l.out
    let apart := ledger (acts.filter (·.name = name))
    out.length ≤ 1 ∧
    ((l.leases.take name).2.isSome ↔ out = []) ∧
    (l.leases.isHeld name ↔ out ≠ []) ∧
    (∀ more, let later := ledger (acts ++ more)
      (out = [] → later.leases.isOver (l.leases.waitFor name)) ∧
      ∀ place ∈ out, later.leases.isOver (l.leases.waitFor name) ↔ place ∉ under name later.out) ∧
    under name l.answers = under name apart.answers ∧ l.finished name = apart.finished name ∧
    let b := lockBook acts
    b.out = l.out ∧ b.answers = l.answers ∧ b.finished name = l.finished name := by
  intro l out apart
  have hl : l.Sound := sound_ledger acts
  have hshows : l.Shows name (alone name acts) := shows_alone acts name
  have hout : out = (alone name acts).out.toList := hshows.out
  have hempty : out = [] ↔ l.leases.held.get? name = none := by
    rw [hout, ← Option.not_isSome_iff_eq_none, hshows.isSome_held]
    cases (alone name acts).out <;> simp
  refine ⟨?_, ?_, ?_, ?_, ?_, ?_, ?_⟩
  · rw [hout]
    cases (alone name acts).out <;> simp
  · rw [hempty]
    cases hheld : l.leases.held.get? name <;> simp [Leases.take, KeyedMap.contains, hheld]
  · rw [Ne, hempty]
    cases hheld : l.leases.held.get? name <;> simp [isHeld, KeyedMap.contains, hheld]
  · intro more later
    constructor
    · intro hfree
      rw [waitFor, hempty.1 hfree]
      rfl
    · intro place hplace
      have halone : (alone name acts).out = some place := by
        simpa [hout] using hplace
      obtain ⟨n, hn⟩ : ∃ n, (under name l.handed)[place]? = some n :=
        ⟨_, List.getElem?_eq_getElem (hshows.lt_of_out halone)⟩
      have hlater : later.Sound := sound_ledger _
      have hstill := handed_append acts more hn
      rw [waitFor, (hshows.held_eq_iff hl hn).2 halone, (hlater.names_of_place hstill).isOver_iff, Ne,
        (shows_alone _ name).held_eq_iff hlater hstill, (shows_alone _ name).out]
      simp
  · rw [hshows.answers, (shows_alone _ name).answers, alone_filter]
  · rw [hshows.finished_eq hl, (shows_alone _ name).finished_eq (sound_ledger _), alone_filter]
  · have htells : (lockBook acts).Tells l := tells_lockBook acts
    exact ⟨htells.out, htells.answers, htells.finished_eq name⟩

/-- Two names are taken, and somebody waits for the end of one of the leases. -/
def twoTenants : List Act :=
  [.take "attic", .take "cellar", .wait "cellar"]

/-- Whoever waits for the first of two leases of a name does not wait for the second. -/
theorem the_second_tenant_is_not_waited_for :
    let l := ledger twoTenants
    let more := [.giveBack "cellar" 0, .take "cellar"]
    let later := ledger (twoTenants ++ more)
    under "cellar" l.out = [0] ∧ under "cellar" later.out = [1] ∧
    later.leases.isHeld "cellar" ∧ later.leases.isOver (l.leases.waitFor "cellar") ∧
    ¬ (ledger (twoTenants ++ [.giveBack "attic" 0])).leases.isOver (l.leases.waitFor "cellar") ∧
    (lockBook (twoTenants ++ more)).finished "cellar" = [true] := by
  intro l more later
  obtain ⟨-, -, -, hwait, -⟩ := a_lease_is_out_once_and_its_waits_end_with_it twoTenants "cellar"
  obtain ⟨-, -, hheld, -, -, -, -, -, hfinished⟩ := a_lease_is_out_once_and_its_waits_end_with_it
    (twoTenants ++ more) "cellar"
  have hout : under "cellar" l.out = [0] := by decide
  have hlater : under "cellar" later.out = [1] := by decide
  have hplace : 0 ∈ under "cellar" l.out := by simp [hout]
  refine ⟨hout, hlater, hheld.2 (hlater.trans_ne (by simp)), ?_, ?_, ?_⟩
  · exact ((hwait _).2 0 hplace).2 (by decide)
  · exact fun hover => ((hwait _).2 0 hplace).1 hover (by decide)
  · exact hfinished.trans (by decide)

end Leases

end HuntBoard
