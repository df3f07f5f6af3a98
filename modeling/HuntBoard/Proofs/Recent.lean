-- The buffer of the newest events holds the last of all that were pushed, and
-- its newest event is the last that was pushed, whatever its capacity. What it
-- does not hold of them, since it was cleared last, it gave up in order.
import HuntBoard.Recent
import Mathlib.Data.List.Induction

namespace HuntBoard.Recent

/-- The buffer after events were pushed one by one. -/
def pushAll (r : Recent) (es : List SyncEvent) : Recent := es.foldl (fun r e => (r.push e).1) r

@[simp] theorem pushAll_nil (r : Recent) : r.pushAll [] = r := rfl

@[simp] theorem pushAll_cons (r : Recent) (e : SyncEvent) (es : List SyncEvent) :
    r.pushAll (e :: es) = (r.push e).1.pushAll es := rfl

theorem pushAll_append (r : Recent) (es more : List SyncEvent) :
    r.pushAll (es ++ more) = (r.pushAll es).pushAll more := List.foldl_append

theorem push_capacity (r : Recent) (e : SyncEvent) : (r.push e).1.capacity = r.capacity := by
  unfold push
  split <;> rfl

/-- A push drops from the front what does not fit. -/
theorem push_events (r : Recent) (e : SyncEvent) :
    (r.push e).1.events = (r.events ++ [e]).drop (r.events.length + 1 - r.capacity) := by
  have hle := r.length_le
  have hpos := r.capacity_pos
  unfold push
  split
  · rename_i hlt
    have h0 : r.events.length + 1 - r.capacity = 0 := by omega
    rw [h0, List.drop_zero]
  · have h1 : r.events.length + 1 - r.capacity = 1 := by omega
    rw [h1, List.drop_append_of_le_length (by omega)]

/-- Of old and new events, the buffer keeps the last ones that fit. -/
theorem pushAll_events (r : Recent) (es : List SyncEvent) :
    (r.pushAll es).events =
      (r.events ++ es).drop (r.events.length + es.length - r.capacity) := by
  induction es generalizing r with
  | nil =>
    have h0 : r.events.length + ([] : List SyncEvent).length - r.capacity = 0 := by
      have hle := r.length_le
      rw [List.length_nil]
      omega
    rw [h0, pushAll_nil, List.append_nil, List.drop_zero]
  | cons e es ih =>
    have hle := r.length_le
    have hpos := r.capacity_pos
    have hlen : (r.push e).1.events.length =
        r.events.length + 1 - (r.events.length + 1 - r.capacity) := by
      rw [push_events, List.length_drop, List.length_append, List.length_singleton]
    have hfit : r.events.length + 1 - r.capacity ≤ (r.events ++ [e]).length := by
      rw [List.length_append, List.length_singleton]
      omega
    have hsum : r.events.length + 1 - r.capacity +
        ((r.push e).1.events.length + es.length - (r.push e).1.capacity) =
        r.events.length + (e :: es).length - r.capacity := by
      rw [hlen, push_capacity, List.length_cons]
      omega
    rw [pushAll_cons, ih, push_events, ← List.drop_append_of_le_length hfit, List.drop_drop,
      ← push_events, hsum, List.append_assoc]
    rfl

theorem ofCapacity_pushAll_events (capacity : Nat) (es : List SyncEvent) :
    ((ofCapacity capacity).pushAll es).events = es.drop (es.length - max capacity 1) := by
  rw [pushAll_events]
  simp [ofCapacity]

/-- The next connection resumes after the last event that was pushed. -/
theorem ofCapacity_pushAll_last? (capacity : Nat) (es : List SyncEvent) :
    ((ofCapacity capacity).pushAll es).last? = es.getLast?.map (·.changeId) := by
  unfold last?
  rw [ofCapacity_pushAll_events, List.getLast?_drop]
  split
  · have hnil : es = [] := List.eq_nil_of_length_eq_zero (by omega)
    rw [hnil]
    rfl
  · rfl

/-! ## One push -/

/-- A buffer keeps an event that it is given, and gives up no more than its oldest. -/
theorem push_splits (r : Recent) (e : SyncEvent) :
    (r.push e).2.toList ++ (r.push e).1.events = r.events ++ [e] := by
  have hpos := r.capacity_pos
  unfold push
  split
  · rfl
  · rename_i hfull
    change r.events.head?.toList ++ (r.events.drop 1 ++ [e]) = r.events ++ [e]
    cases hevents : r.events with
    | nil => simp [hevents, hpos] at hfull
    | cons oldest rest => rfl

theorem length_push (r : Recent) (e : SyncEvent) :
    (r.push e).1.events.length = min r.capacity (r.events.length + 1) := by
  have hle := r.length_le
  have hpos := r.capacity_pos
  rw [push_events, List.length_drop, List.length_append, List.length_singleton]
  omega

/-- A buffer gives up an event exactly when it is full, and then its oldest. -/
theorem push_evicts_iff (r : Recent) (e old : SyncEvent) :
    (r.push e).2 = some old ↔ r.events.length = r.capacity ∧ r.events.head? = some old := by
  have hle := r.length_le
  unfold push
  split
  · rename_i hroom
    have hnot : r.events.length ≠ r.capacity := by omega
    simp [hnot]
  · have hfull : r.events.length = r.capacity := by omega
    simp [hfull]

/-- A full buffer has an oldest event to give up. -/
theorem isSome_push_iff (r : Recent) (e : SyncEvent) :
    (r.push e).2.isSome ↔ r.events.length = r.capacity := by
  have hpos := r.capacity_pos
  rw [Option.isSome_iff_exists]
  constructor
  · rintro ⟨old, hold⟩
    exact ((r.push_evicts_iff e old).1 hold).1
  · intro hfull
    have hne : r.events ≠ [] := List.ne_nil_of_length_pos (by omega)
    exact ⟨r.events.head hne, (r.push_evicts_iff e _).2 ⟨hfull, List.head?_eq_some_head hne⟩⟩

/-! ## Pushing and clearing -/

/-- What is done to a buffer. -/
inductive Act where
  | push (e : SyncEvent)
  | clear
  deriving DecidableEq

/-- The events that were pushed since the last clearing. -/
def pushed (acts : List Act) : List SyncEvent :=
  acts.foldl (fun es act => match act with
    | .push e => es ++ [e]
    | .clear => []) []

/-- A buffer after an act, beside the events that it gave up since the last clearing. -/
def take (o : Recent × List SyncEvent) : Act → Recent × List SyncEvent
  | .push e => ((o.1.push e).1, o.2 ++ (o.1.push e).2.toList)
  | .clear => (o.1.clear, [])

/-- A new buffer after acts, beside the events that it gave up since the last clearing. -/
def run (capacity : Nat) (acts : List Act) : Recent × List SyncEvent :=
  acts.foldl take (ofCapacity capacity, [])

theorem run_concat (capacity : Nat) (acts : List Act) (act : Act) :
    run capacity (acts ++ [act]) = take (run capacity acts) act := by
  simp [run, List.foldl_append]

theorem pushed_concat_push (acts : List Act) (e : SyncEvent) :
    pushed (acts ++ [.push e]) = pushed acts ++ [e] := by
  simp [pushed, List.foldl_append]

theorem pushed_concat_clear (acts : List Act) : pushed (acts ++ [.clear]) = [] := by
  simp [pushed, List.foldl_append]

/-- How a buffer of a capacity stands to what was pushed since it was cleared: nothing is lost
between what it gave up and what it holds, and it holds as much as there is room for. -/
structure Keeps (capacity : Nat) (es : List SyncEvent) (o : Recent × List SyncEvent) : Prop where
  room : o.1.capacity = max capacity 1
  whole : es = o.2 ++ o.1.events
  length : o.1.events.length = min (max capacity 1) es.length

namespace Keeps

variable {capacity : Nat} {es : List SyncEvent} {o : Recent × List SyncEvent}

theorem push (h : Keeps capacity es o) (e : SyncEvent) :
    Keeps capacity (es ++ [e]) (take o (.push e)) where
  room := (o.1.push_capacity e).trans h.room
  whole := by
    simp only [take]
    rw [List.append_assoc, push_splits, ← List.append_assoc, ← h.whole]
  length := by
    simp only [take]
    rw [length_push, h.room, h.length, List.length_append, List.length_singleton]
    omega

theorem clear (h : Keeps capacity es o) : Keeps capacity [] (take o .clear) where
  room := h.room
  whole := rfl
  length := by simp [take, Recent.clear]

/-- What was given up is the first part, so what is held is all that comes behind it. -/
theorem events_eq (h : Keeps capacity es o) :
    o.1.events = es.drop (es.length - min (max capacity 1) es.length) := by
  have hgone : es.length - min (max capacity 1) es.length = o.2.length := by
    have hsum := congrArg List.length h.whole
    rw [List.length_append] at hsum
    have hlength := h.length
    omega
  rw [hgone, h.whole, List.drop_left]

end Keeps

theorem keeps_run (capacity : Nat) (acts : List Act) :
    Keeps capacity (pushed acts) (run capacity acts) := by
  induction acts using List.reverseRecOn with
  | nil => exact ⟨rfl, rfl, by simp [run, pushed, ofCapacity]⟩
  | append_singleton acts act ih =>
    rw [run_concat]
    cases act with
    | push e =>
      rw [pushed_concat_push]
      exact ih.push e
    | clear =>
      rw [pushed_concat_clear]
      exact ih.clear

/-- Of the events pushed since it was cleared last, a buffer gave up the first, in order, and holds
the others: the last ones, as many as it has room for, and room for one it has always. It gives up
an event when it is full and at no other time, and that is its oldest. The ids it tells are those
of the first and the last event it holds, and the latter is the last that was pushed. -/
theorem the_newest_events_are_kept (capacity : Nat) (acts : List Act) :
    let r := (run capacity acts).1
    let evicted := (run capacity acts).2
    let es := pushed acts
    es = evicted ++ r.events ∧
    r.events = es.drop (es.length - min (max capacity 1) es.length) ∧
    (∀ e, (r.push e).2.isSome ↔ r.events.length = max capacity 1) ∧
    (∀ e old, (r.push e).2 = some old ↔
      r.events.length = max capacity 1 ∧ r.events.head? = some old) ∧
    r.oldest? = r.events.head?.map (·.changeId) ∧
    r.last? = r.events.getLast?.map (·.changeId) ∧
    r.last? = es.getLast?.map (·.changeId) := by
  intro r evicted es
  have h : Keeps capacity es (r, evicted) := keeps_run capacity acts
  have hroom : r.capacity = max capacity 1 := h.room
  refine ⟨h.whole, h.events_eq, ?_, ?_, rfl, rfl, ?_⟩
  · intro e
    rw [← hroom]
    exact r.isSome_push_iff e
  · intro e old
    rw [← hroom]
    exact r.push_evicts_iff e old
  · have hlength : r.events.length = min (max capacity 1) es.length := h.length
    unfold last?
    rw [h.whole, List.getLast?_append]
    cases hlast : r.events.getLast? with
    | some e => rfl
    | none =>
      -- An empty buffer has given up nothing, since it has room for one event at least.
      have hnone : es = [] := by
        rw [List.getLast?_eq_none_iff] at hlast
        rw [hlast, List.length_nil] at hlength
        exact List.eq_nil_of_length_eq_zero (by omega)
      obtain ⟨hgone, -⟩ := List.append_eq_nil_iff.1 (h.whole.symm.trans hnone)
      rw [hgone]
      rfl

/-- Where no room at all is asked for, the buffer holds the last event still. -/
example (e f : SyncEvent) :
    (run 0 [.push e, .push f]).1.events = [f] ∧ (run 0 [.push e, .push f]).2 = [e] := ⟨rfl, rfl⟩

end HuntBoard.Recent
