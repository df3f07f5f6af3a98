-- What happens around leases, act by act: who has a lease and did not give it back, who waits for
-- one to end, and that names have nothing to do with each other.
import HuntBoard.Proofs.Leases
import Mathlib.Data.List.Induction
import Mathlib.Data.List.Nodup

namespace HuntBoard

namespace Leases

/-! ## Acts -/

/-- What is done under a name. The leases handed out under a name are counted from 0. -/
inductive Act where
  | take (name : String)
  | giveBack (name : String) (place : Nat)
  | wait (name : String)
  | ask (name : String)
  deriving DecidableEq

def Act.name : Act → String
  | take name | giveBack name _ | wait name | ask name => name

/-- What is noted under a name, in order. -/
def under {α : Type} (name : String) (notes : List (String × α)) : List α :=
  (notes.filter (·.1 = name)).map (·.2)

/-- The leases, and what is noted of all that is done with them. -/
structure Ledger where
  leases : Leases := {}
  /-- The leases that were handed out. -/
  handed : List (String × LeaseNumber) := []
  /-- The places of those that were not given back. -/
  out : List (String × Nat) := []
  waits : List (String × Wait) := []
  answers : List (String × Bool) := []

namespace Ledger

/-- The answer to an act under a name is noted. -/
def note (l : Ledger) (name : String) (answer : Bool) : Ledger :=
  { l with answers := l.answers ++ [(name, answer)] }

/-- Whoever asks for a lease gets it or is refused. -/
def take (l : Ledger) (name : String) : Ledger :=
  match l.leases.take name with
  | (leases, some n) =>
    note { l with
      leases
      handed := l.handed ++ [(name, n)]
      out := l.out ++ [(name, (under name l.handed).length)] } name true
  | (leases, none) => note { l with leases } name false

/-- A lease that was handed out is given back; the answer tells whether it was still out. -/
def giveBack (l : Ledger) (name : String) (place : Nat) : Ledger :=
  match (under name l.handed)[place]? with
  | some n =>
    note { l with leases := l.leases.release n, out := l.out.filter (· ≠ (name, place)) } name
      (decide ((name, place) ∈ l.out))
  | none => l.note name false

/-- Somebody begins to wait for the end of the lease of a name; the answer tells whether that is
over at once. -/
def wait (l : Ledger) (name : String) : Ledger :=
  note { l with waits := l.waits ++ [(name, l.leases.waitFor name)] } name
    (l.leases.isOver (l.leases.waitFor name))

def act (l : Ledger) : Act → Ledger
  | .take name => l.take name
  | .giveBack name place => l.giveBack name place
  | .wait name => l.wait name
  | .ask name => l.note name (l.leases.isHeld name)

/-- Which of those who wait under a name, in the order they came, have nothing to wait for any more. -/
def finished (l : Ledger) (name : String) : List Bool := (under name l.waits).map l.leases.isOver

end Ledger

/-- What is noted of acts that begin with no lease taken. -/
def ledger (acts : List Act) : Ledger := acts.foldl Ledger.act {}

/-! ## One name alone -/

/-- One name on its own: how many leases were handed out, which of them is out, which each of
those who wait waits for, and the answers. -/
structure Alone where
  handed : Nat := 0
  out : Option Nat := none
  waits : List (Option Nat) := []
  answers : List Bool := []

namespace Alone

def act (s : Alone) : Act → Alone
  | .take _ =>
    match s.out with
    | none =>
      { s with handed := s.handed + 1, out := some s.handed, answers := s.answers ++ [true] }
    | some _ => { s with answers := s.answers ++ [false] }
  | .giveBack _ place =>
    if s.out = some place then { s with out := none, answers := s.answers ++ [true] }
    else { s with answers := s.answers ++ [false] }
  | .wait _ => { s with waits := s.waits ++ [s.out], answers := s.answers ++ [s.out.isNone] }
  | .ask _ => { s with answers := s.answers ++ [s.out.isSome] }

/-- A wait is over when the lease it is for is not the one that is out. -/
def isOver (s : Alone) : Option Nat → Bool
  | none => true
  | some place => decide (s.out ≠ some place)

end Alone

/-- What one name comes to by the acts under it, whatever is done under others. -/
def alone (name : String) (acts : List Act) : Alone :=
  (acts.filter (·.name = name)).foldl Alone.act {}

variable {α : Type} {name x : String}

theorem under_concat (notes : List (String × α)) (a : α) :
    under x (notes ++ [(name, a)]) = if name = x then under x notes ++ [a] else under x notes := by
  unfold under
  by_cases h : name = x
  · simp [h]
  · simp [h]

theorem under_filter_ne [DecidableEq α] (notes : List (String × α)) (a : α) :
    under x (notes.filter (· ≠ (name, a))) =
      if name = x then (under x notes).filter (· ≠ a) else under x notes := by
  induction notes with
  | nil => simp [under]
  | cons e notes ih =>
    obtain ⟨y, b⟩ := e
    unfold under at ih ⊢
    by_cases hname : name = x
    · subst hname
      by_cases hy : y = name
      · subst hy
        by_cases hb : b = a
        · simpa [hb] using ih
        · simpa [hb] using ih
      · simpa [hy] using ih
    · by_cases hy : y = x
      · subst hy
        simpa [hname, Ne.symm hname] using ih
      · by_cases hne : (y, b) = (name, a)
        · simpa [hy, hne, hname] using ih
        · simpa [hy, hne, hname] using ih

theorem mem_under {notes : List (String × α)} {a : α} : a ∈ under x notes ↔ (x, a) ∈ notes := by
  unfold under
  simp

theorem under_append (notes more : List (String × α)) :
    under x (notes ++ more) = under x notes ++ under x more := by
  simp [under]

theorem ledger_concat (acts : List Act) (a : Act) : ledger (acts ++ [a]) = (ledger acts).act a := by
  simp [ledger, List.foldl_append]

theorem alone_concat (acts : List Act) (a : Act) :
    alone x (acts ++ [a]) = if a.name = x then (alone x acts).act a else alone x acts := by
  unfold alone
  by_cases h : a.name = x
  · simp [h, List.foldl_append]
  · simp [h]

/-! ## What every act keeps -/

namespace Ledger

variable {l : Ledger} {n : LeaseNumber} {place : Nat}

/-- A name that is free is taken under the next number. -/
theorem take_of_free (h : l.leases.held.get? name = none) :
    l.take name =
      note { l with
        leases := (l.leases.take name).1
        handed := l.handed ++ [(name, l.leases.next)]
        out := l.out ++ [(name, (under name l.handed).length)] } name true := by
  simp [take, Leases.take, KeyedMap.contains, h]

/-- A name that is held is refused, and nothing else happens. -/
theorem take_of_held (h : l.leases.held.get? name = some n) : l.take name = l.note name false := by
  simp [take, Leases.take, KeyedMap.contains, h]

theorem giveBack_of_some (h : (under name l.handed)[place]? = some n) :
    l.giveBack name place =
      note { l with leases := l.leases.release n, out := l.out.filter (· ≠ (name, place)) } name
        (decide ((name, place) ∈ l.out)) := by
  simp [giveBack, h]

theorem giveBack_of_none (h : (under name l.handed)[place]? = none) :
    l.giveBack name place = l.note name false := by
  simp [giveBack, h]

/-- Every lease was handed out once, and stands for the name it was handed out under. -/
structure Sound (l : Ledger) : Prop where
  faithful : l.leases.Faithful
  names : ∀ name n, (name, n) ∈ l.handed → l.leases.Names n name
  once : (l.handed.map (·.2)).Nodup

theorem Sound.under_once (h : l.Sound) (name : String) : (under name l.handed).Nodup :=
  h.once.sublist (List.filter_sublist.map _)

/-- A lease has one place among those of its name. -/
theorem Sound.place_eq (h : l.Sound) {j k : Nat} (hj : (under name l.handed)[j]? = some n)
    (hk : (under name l.handed)[k]? = some n) : j = k := by
  have hlt : j < (under name l.handed).length := by
    by_contra hge
    simp [List.getElem?_eq_none (Nat.le_of_not_lt hge)] at hj
  exact (List.getElem?_inj hlt (h.under_once name)).1 (hj.trans hk.symm)

theorem Sound.names_of_place (h : l.Sound) (hn : (under name l.handed)[place]? = some n) :
    l.leases.Names n name :=
  h.names name n (mem_under.1 (List.mem_of_getElem? hn))

theorem Sound.take (h : l.Sound) (name : String) : (l.take name).Sound := by
  cases hheld : l.leases.held.get? name with
  | some n =>
    rw [take_of_held hheld]
    exact ⟨h.faithful, h.names, h.once⟩
  | none =>
    rw [take_of_free hheld]
    have hfaithful := h.faithful.take name
    refine ⟨hfaithful, ?_, ?_⟩
    · intro x n hmem
      rcases List.mem_append.1 hmem with hmem | hmem
      · exact (h.names x n hmem).take name
      · obtain ⟨rfl, rfl⟩ := Prod.mk.inj (List.mem_singleton.1 hmem)
        refine hfaithful x _ ?_
        simp [get?_take, hheld]
    · -- The number that is handed out now is none of those handed out before.
      have hnew : l.leases.next ∉ l.handed.map (·.2) := by
        intro hmem
        obtain ⟨⟨x, n⟩, hmem, hn⟩ := List.mem_map.1 hmem
        exact absurd hn (Nat.ne_of_lt (h.names x n hmem).lt_next)
      simpa [note, List.nodup_append] using
        ⟨h.once, fun x n hmem heq => hnew (heq ▸ List.mem_map_of_mem hmem)⟩

theorem Sound.act (h : l.Sound) (a : Act) : (l.act a).Sound := by
  cases a with
  | take name => exact h.take name
  | giveBack name place =>
    cases hn : (under name l.handed)[place]? with
    | some n =>
      rw [Ledger.act, giveBack_of_some hn]
      exact ⟨h.faithful.release n, fun x m hmem => (h.names x m hmem).release n, h.once⟩
    | none =>
      rw [Ledger.act, giveBack_of_none hn]
      exact ⟨h.faithful, h.names, h.once⟩
  | wait name => exact ⟨h.faithful, h.names, h.once⟩
  | ask name => exact ⟨h.faithful, h.names, h.once⟩

/-- Who waits for a lease that is held has to wait, and nobody else has. -/
theorem Sound.isOver_held (h : l.Sound) (name : String) :
    l.leases.isOver (l.leases.held.get? name) = !(l.leases.held.get? name).isSome := by
  cases hn : l.leases.held.get? name with
  | none => rfl
  | some n => simpa [hn] using mt ((h.faithful name n hn).isOver_iff).1 (by simp [hn])

/-- A ledger shows a name as it is on its own. -/
structure Shows (l : Ledger) (name : String) (s : Alone) : Prop where
  handed : (under name l.handed).length = s.handed
  held : l.leases.held.get? name = s.out.bind ((under name l.handed)[·]?)
  out : under name l.out = s.out.toList
  out_lt : ∀ k, s.out = some k → k < s.handed
  waits : under name l.waits = s.waits.map (·.bind ((under name l.handed)[·]?))
  waits_lt : ∀ k, some k ∈ s.waits → k < s.handed
  answers : under name l.answers = s.answers

variable {s : Alone}

/-- The lease that is out has its place among those handed out. -/
theorem Shows.lt_of_out (h : l.Shows x s) (hout : s.out = some place) :
    place < (under x l.handed).length :=
  h.handed ▸ h.out_lt place hout

/-- And so has one that is waited for. -/
theorem Shows.lt_of_waits (h : l.Shows x s) (hwait : some place ∈ s.waits) :
    place < (under x l.handed).length :=
  h.handed ▸ h.waits_lt place hwait

theorem Shows.isSome_held (h : l.Shows x s) : (l.leases.held.get? x).isSome = s.out.isSome := by
  rw [h.held]
  cases hout : s.out with
  | none => rfl
  | some k => simp [h.lt_of_out hout]

theorem Shows.mem_out_iff (h : l.Shows x s) : (x, place) ∈ l.out ↔ s.out = some place := by
  rw [← mem_under, h.out]
  simp

/-- A lease that was handed out is held as long as it is out. -/
theorem Shows.held_eq_iff (hl : l.Sound) (h : l.Shows x s) (hn : (under x l.handed)[place]? = some n) :
    l.leases.held.get? x = some n ↔ s.out = some place := by
  rw [h.held]
  constructor
  · intro hbind
    obtain ⟨k, hk, hkn⟩ := Option.bind_eq_some_iff.1 hbind
    rw [hk, hl.place_eq hkn hn]
  · intro hout
    simp [hout, hn]

/-- What is done under another name does not show. -/
theorem Shows.act_other (hl : l.Sound) (h : l.Shows x s) {a : Act} (ha : a.name ≠ x) :
    (l.act a).Shows x s := by
  -- All that is noted under the name stays, and so does its lease.
  have hkept : ∀ l' : Ledger, l'.leases.held.get? x = l.leases.held.get? x →
      under x l'.handed = under x l.handed → under x l'.out = under x l.out →
      under x l'.waits = under x l.waits → under x l'.answers = under x l.answers → l'.Shows x s := by
    intro l' hheld hhanded hout hwaits hanswers
    exact ⟨hhanded ▸ h.handed, by rw [hheld, hhanded, h.held], hout ▸ h.out, h.out_lt,
      by rw [hwaits, hhanded, h.waits], h.waits_lt, hanswers ▸ h.answers⟩
  cases a with
  | take name =>
    replace ha : name ≠ x := ha
    cases hheld : l.leases.held.get? name with
    | some n =>
      rw [Ledger.act, take_of_held hheld]
      apply hkept <;> simp [note, under_concat, ha]
    | none =>
      rw [Ledger.act, take_of_free hheld]
      apply hkept <;> simp [note, under_concat, get?_take, ha, Ne.symm ha]
  | giveBack name place =>
    replace ha : name ≠ x := ha
    cases hn : (under name l.handed)[place]? with
    | some n =>
      have hother : l.leases.held.get? x ≠ some n := fun hx =>
        ha ((hl.names_of_place hn).eq_name x hx).symm
      rw [Ledger.act, giveBack_of_some hn]
      refine hkept _ ?_ rfl ?_ rfl ?_
      · simp [note, get?_release, hother]
      · rw [note, under_filter_ne, if_neg ha]
      · simp [note, under_concat, ha]
    | none =>
      rw [Ledger.act, giveBack_of_none hn]
      apply hkept <;> simp [note, under_concat, ha]
  | wait name =>
    replace ha : name ≠ x := ha
    apply hkept <;> simp [Ledger.act, wait, note, under_concat, ha]
  | ask name =>
    replace ha : name ≠ x := ha
    apply hkept <;> simp [Ledger.act, note, under_concat, ha]

/-- What is done under a name shows as it does on its own. -/
theorem Shows.act_own (hl : l.Sound) (h : l.Shows x s) {a : Act} (ha : a.name = x) :
    (l.act a).Shows x (s.act a) := by
  cases a with
  | take name =>
    replace ha : name = x := ha
    subst ha
    cases hout : s.out with
    | some k =>
      have hk := h.lt_of_out hout
      have hheld : l.leases.held.get? name = some (under name l.handed)[k] := by
        simp [h.held, hout, hk]
      rw [Ledger.act, take_of_held hheld]
      simp only [Alone.act, hout]
      exact ⟨h.handed, hout ▸ h.held, hout ▸ h.out, hout ▸ h.out_lt, h.waits, h.waits_lt,
        by simp [note, under_concat, h.answers]⟩
    | none =>
      have hheld : l.leases.held.get? name = none := by simp [h.held, hout]
      rw [Ledger.act, take_of_free hheld]
      simp only [Alone.act, hout]
      constructor
      · simp [note, under_concat, h.handed]
      · simp [note, under_concat, get?_take, hheld, ← h.handed]
      · simp [note, under_concat, h.out, hout, h.handed]
      · simp
      · -- Whoever waits already waits for a lease with a smaller place.
        rw [note, under_concat, if_pos rfl, h.waits]
        refine List.map_congr_left fun w hw => ?_
        cases w with
        | none => rfl
        | some k => simp [List.getElem?_append_left (h.lt_of_waits hw)]
      · intro k hk
        exact Nat.lt_succ_of_lt (h.waits_lt k hk)
      · simp [note, under_concat, h.answers]
  | giveBack name place =>
    replace ha : name = x := ha
    subst ha
    have hmem : (name, place) ∈ l.out ↔ s.out = some place := h.mem_out_iff
    cases hn : (under name l.handed)[place]? with
    | some n =>
      have hheld := h.held_eq_iff hl hn
      rw [Ledger.act, giveBack_of_some hn]
      by_cases hout : s.out = some place
      · simp only [Alone.act, if_pos hout]
        constructor
        · exact h.handed
        · simp [note, get?_release, hheld, hout]
        · rw [note, under_filter_ne, if_pos rfl, h.out, hout]
          simp
        · simp
        · exact h.waits
        · exact h.waits_lt
        · simp [note, under_concat, h.answers, hmem, hout]
      · simp only [Alone.act, if_neg hout]
        constructor
        · exact h.handed
        · rw [note, get?_release, if_neg (mt hheld.1 hout)]
          exact h.held
        · rw [note, under_filter_ne, if_pos rfl, h.out, List.filter_eq_self]
          intro k hk
          simpa using fun heq => hout (by simpa [heq] using hk)
        · exact h.out_lt
        · exact h.waits
        · exact h.waits_lt
        · simp [note, under_concat, h.answers, hmem, hout]
    | none =>
      -- A lease that is out was handed out.
      have hout : s.out ≠ some place := by
        intro hout
        simp [h.lt_of_out hout] at hn
      rw [Ledger.act, giveBack_of_none hn]
      simp only [Alone.act, if_neg hout]
      exact ⟨h.handed, h.held, h.out, h.out_lt, h.waits, h.waits_lt,
        by simp [note, under_concat, h.answers]⟩
  | wait name =>
    replace ha : name = x := ha
    subst ha
    have hover : l.leases.isOver (l.leases.waitFor name) = s.out.isNone := by
      rw [Leases.waitFor, hl.isOver_held, h.isSome_held, Option.not_isSome]
    constructor
    · exact h.handed
    · exact h.held
    · exact h.out
    · exact h.out_lt
    · simp [Ledger.act, wait, note, under_concat, Alone.act, h.waits, Leases.waitFor, h.held]
    · intro k hk
      rcases List.mem_append.1 hk with hk | hk
      · exact h.waits_lt k hk
      · exact h.out_lt k (List.mem_singleton.1 hk).symm
    · simp [Ledger.act, wait, note, under_concat, Alone.act, h.answers, hover]
  | ask name =>
    replace ha : name = x := ha
    subst ha
    have hheld : l.leases.isHeld name = s.out.isSome := h.isSome_held
    exact ⟨h.handed, h.held, h.out, h.out_lt, h.waits, h.waits_lt,
      by simp [Ledger.act, note, under_concat, Alone.act, h.answers, hheld]⟩

/-- Those who wait under a name see the leases come and go as they do on their own. -/
theorem Shows.finished_eq (hl : l.Sound) (h : l.Shows x s) : l.finished x = s.waits.map s.isOver := by
  rw [finished, h.waits, List.map_map]
  refine List.map_congr_left fun w hw => ?_
  cases w with
  | none => rfl
  | some k =>
    have hk := h.lt_of_waits hw
    have hplace : (under x l.handed)[k]? = some (under x l.handed)[k] := List.getElem?_eq_getElem hk
    rw [Function.comp_apply, Option.bind_some, hplace, Bool.eq_iff_iff, (hl.names_of_place hplace).isOver_iff]
    simp [Alone.isOver, h.held_eq_iff hl hplace]

/-- Nothing is struck off the leases that were handed out. -/
theorem act_handed (l : Ledger) (a : Act) : ∃ new, (l.act a).handed = l.handed ++ new := by
  cases a with
  | take name =>
    cases hheld : l.leases.held.get? name with
    | some n => exact ⟨[], by simp [act, take_of_held hheld, note]⟩
    | none => exact ⟨[(name, l.leases.next)], by simp [act, take_of_free hheld, note]⟩
  | giveBack name place =>
    cases hn : (under name l.handed)[place]? with
    | some n => exact ⟨[], by simp [act, giveBack_of_some hn, note]⟩
    | none => exact ⟨[], by simp [act, giveBack_of_none hn, note]⟩
  | wait name => exact ⟨[], by simp [act, wait, note]⟩
  | ask name => exact ⟨[], by simp [act, note]⟩

end Ledger

/-! ## All acts -/

theorem sound_ledger (acts : List Act) : (ledger acts).Sound := by
  induction acts using List.reverseRecOn with
  | nil => exact ⟨faithful_empty, by simp [ledger], by simp [ledger]⟩
  | append_singleton acts a ih =>
    rw [ledger_concat]
    exact ih.act a

/-- Every name shows as if there were no other. -/
theorem shows_alone (acts : List Act) (name : String) : (ledger acts).Shows name (alone name acts) := by
  induction acts using List.reverseRecOn with
  | nil => constructor <;> simp [ledger, alone, under]
  | append_singleton acts a ih =>
    rw [ledger_concat, alone_concat]
    by_cases ha : a.name = name
    · rw [if_pos ha]
      exact ih.act_own (sound_ledger acts) ha
    · rw [if_neg ha]
      exact ih.act_other (sound_ledger acts) ha

theorem alone_filter (acts : List Act) (name : String) :
    alone name (acts.filter (·.name = name)) = alone name acts := by
  simp [alone]

/-- Leases that were handed out keep their places. -/
theorem handed_append {n : LeaseNumber} {place : Nat} (acts more : List Act)
    (h : (under name (ledger acts).handed)[place]? = some n) :
    (under name (ledger (acts ++ more)).handed)[place]? = some n := by
  induction more using List.reverseRecOn with
  | nil => simpa using h
  | append_singleton more a ih =>
    rw [← List.append_assoc, ledger_concat]
    obtain ⟨new, hnew⟩ := (ledger (acts ++ more)).act_handed a
    obtain ⟨hlt, -⟩ := List.getElem?_eq_some_iff.1 ih
    rw [hnew, under_append, List.getElem?_append_left hlt, ih]

end Leases

end HuntBoard
