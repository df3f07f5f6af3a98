-- What is shown of a puzzle or a round comes from the server's state of it and from the edits
-- that name it, in their order. Nothing else has a part in it.
import HuntBoard.Proofs.KeyedMap
import HuntBoard.Proofs.Replica

namespace HuntBoard

/-! ## What edits and changes are about -/

/-- A puzzle or a round, by its id. -/
inductive Subject where
  | puzzle (id : PuzzleId)
  | round (id : RoundId)
  deriving DecidableEq

namespace Subject

/-- What stands under an id. -/
abbrev Value : Subject → Type
  | puzzle _ => Puzzle
  | round _ => Round

end Subject

namespace Change

def subject : Change → Subject
  | upsertPuzzle p => .puzzle p.id
  | deletePuzzle id => .puzzle id
  | upsertRound r => .round r.id
  | deleteRound id => .round id

/-- What stands under the id after the change. -/
def value : (c : Change) → Option c.subject.Value
  | upsertPuzzle p => some p
  | deletePuzzle _ => none
  | upsertRound r => some r
  | deleteRound _ => none

end Change

namespace Edit

/-- The puzzle or round that an edit names. -/
def subject : Edit → Subject
  | patchPuzzle id _ => .puzzle id
  | deletePuzzle id => .puzzle id
  | patchRound id _ => .round id
  | deleteRound id => .round id

/-- What an edit makes of the value under an id, or of there being none: a patch goes over what
is there, and where nothing is, it makes a whole entity if it can stand alone; a deletion leaves
nothing. An edit of the other kind has no part in it. -/
def on : Edit → (x : Subject) → Option x.Value → Option x.Value
  | patchPuzzle _ patch, .puzzle id, value =>
    match value with
    | some p => some (patch.apply p)
    | none => patch.toPuzzle? id
  | patchRound _ patch, .round id, value =>
    match value with
    | some r => some (patch.apply r)
    | none => patch.toRound? id
  | deletePuzzle _, .puzzle _, _ => none
  | deleteRound _, .round _, _ => none
  | _, _, value => value

end Edit

/-- The edits of an overlay that name a puzzle or a round, in the order of their keys. -/
def Overlay.about (o : Overlay) (x : Subject) : List Edit :=
  (o.toList.map (·.2)).filter (·.subject = x)

namespace Entities

/-- What a state holds under an id. -/
def entity? (s : Entities) : (x : Subject) → Option x.Value
  | .puzzle id => s.puzzles.get? id
  | .round id => s.rounds.get? id

/-- The state with another value under an id, or with none. -/
def put (s : Entities) : (x : Subject) → Option x.Value → Entities
  | .puzzle id, some p => { s with puzzles := s.puzzles.insert id p }
  | .puzzle id, none => { s with puzzles := s.puzzles.erase id }
  | .round id, some r => { s with rounds := s.rounds.insert id r }
  | .round id, none => { s with rounds := s.rounds.erase id }

variable {s t : Entities} {x y : Subject}

/-! ## One id at a time -/

/-- Two states that hold the same under every id are the same. -/
theorem ext_entity? (h : ∀ x, s.entity? x = t.entity? x) : s = t := by
  have hpuzzles : s.puzzles = t.puzzles := KeyedMap.ext_get? fun id => h (.puzzle id)
  have hrounds : s.rounds = t.rounds := KeyedMap.ext_get? fun id => h (.round id)
  cases s
  cases t
  simp_all

theorem entity?_put_self (s : Entities) (x : Subject) (value : Option x.Value) :
    (s.put x value).entity? x = value := by
  cases x with
  | puzzle id =>
    cases value with
    | some p => exact KeyedMap.get?_insert_self ..
    | none => exact KeyedMap.get?_erase_self ..
  | round id =>
    cases value with
    | some r => exact KeyedMap.get?_insert_self ..
    | none => exact KeyedMap.get?_erase_self ..

theorem entity?_put_of_ne (h : x ≠ y) (value : Option x.Value) :
    (s.put x value).entity? y = s.entity? y := by
  cases x with
  | puzzle id =>
    cases y with
    | round j => cases value <;> rfl
    | puzzle j =>
      have hne : j ≠ id := fun heq => h (congrArg _ heq.symm)
      cases value with
      | some p => exact KeyedMap.get?_insert_ne _ _ hne
      | none => exact KeyedMap.get?_erase_ne _ hne
  | round id =>
    cases y with
    | puzzle j => cases value <;> rfl
    | round j =>
      have hne : j ≠ id := fun heq => h (congrArg _ heq.symm)
      cases value with
      | some r => exact KeyedMap.get?_insert_ne _ _ hne
      | none => exact KeyedMap.get?_erase_ne _ hne

/-- To take away what is not there changes nothing. -/
theorem put_of_absent (h : s.entity? x = none) : s.put x none = s := by
  apply ext_entity?
  intro y
  by_cases hxy : x = y
  · subst hxy
    rw [entity?_put_self, h]
  · rw [entity?_put_of_ne hxy]

/-- A change of the server's state puts its value under its id. -/
theorem change_eq_put (s : Entities) (c : Change) : s.change c = s.put c.subject c.value := by
  cases c <;> rfl

/-- An edit puts under the id that it names what it makes of the value there. -/
theorem edit_eq_put (s : Entities) (e : Edit) :
    s.edit e = s.put e.subject (e.on e.subject (s.entity? e.subject)) := by
  cases e with
  | patchPuzzle id patch =>
    cases hp : s.puzzles.get? id with
    | some p => simp [edit, Edit.subject, Edit.on, entity?, put, hp]
    | none =>
      cases hnew : patch.toPuzzle? id with
      | some p => simp [edit, Edit.subject, Edit.on, entity?, put, hp, hnew]
      | none =>
        have habsent : s.put (.puzzle id) none = s := put_of_absent hp
        simpa [edit, Edit.subject, Edit.on, entity?, hp, hnew] using habsent.symm
  | patchRound id patch =>
    cases hr : s.rounds.get? id with
    | some r => simp [edit, Edit.subject, Edit.on, entity?, put, hr]
    | none =>
      cases hnew : patch.toRound? id with
      | some r => simp [edit, Edit.subject, Edit.on, entity?, put, hr, hnew]
      | none =>
        have habsent : s.put (.round id) none = s := put_of_absent hr
        simpa [edit, Edit.subject, Edit.on, entity?, hr, hnew] using habsent.symm
  | deletePuzzle id => rfl
  | deleteRound id => rfl

/-! ## Many edits -/

/-- What many edits make of the value under an id is what those that name it make of it. -/
theorem entity?_foldl_edit (s : Entities) (es : List Edit) (x : Subject) :
    (es.foldl edit s).entity? x =
      (es.filter (·.subject = x)).foldl (fun value e => e.on x value) (s.entity? x) := by
  induction es generalizing s with
  | nil => rfl
  | cons e es ih =>
    rw [List.foldl_cons, ih, edit_eq_put]
    by_cases hx : e.subject = x
    · subst hx
      rw [List.filter_cons_of_pos (by simp), List.foldl_cons, entity?_put_self]
    · rw [List.filter_cons_of_neg (by simpa using hx), entity?_put_of_ne hx]

end Entities

/-! ## The law -/

namespace Replica

theorem entity?_shown (r : Replica) (o : Overlay) (x : Subject) :
    (r.shown o).entity? x =
      (o.about x).foldl (fun value e => e.on x value) (r.entities.entity? x) :=
  Entities.entity?_foldl_edit r.entities _ x

/-- What a copy holds under other ids than the one that a change is about stays. -/
theorem entity?_apply_of_ne {e : SyncEvent} {x : Subject} (r : Replica)
    (h : e.change.subject ≠ x) : (r.apply e).1.entities.entity? x = r.entities.entity? x := by
  rcases r.apply_cases e with ⟨-, ha⟩ | ⟨-, -, ha⟩ | ⟨-, -, ha⟩
  · rw [ha]
  · rw [ha]
  · rw [ha]
    change (r.entities.change e.change).entity? x = _
    rw [Entities.change_eq_put, Entities.entity?_put_of_ne h]

/-- What is shown of a puzzle or a round is what the edits that name it make of the server's state
of it, one by one in the order of their keys. So what no edit names is shown as the server has it.
Edits of other entities make no difference, and so the edits of different entities may stand in
any order. A change from the server makes no difference to what is shown of other entities than
its own. -/
theorem each_entity_is_shown_on_its_own (r : Replica) (o : Overlay) :
    (∀ x, (r.shown o).entity? x =
      (o.about x).foldl (fun value e => e.on x value) (r.entities.entity? x)) ∧
    (∀ x, o.about x = [] → (r.shown o).entity? x = r.entities.entity? x) ∧
    (∀ x (o' : Overlay), o'.about x = o.about x →
      (r.shown o').entity? x = (r.shown o).entity? x) ∧
    (∀ o' : Overlay, (∀ x, o'.about x = o.about x) → r.shown o' = r.shown o) ∧
    ∀ (e : SyncEvent) (x : Subject), e.change.subject ≠ x →
      ((r.apply e).1.shown o).entity? x = (r.shown o).entity? x := by
  have hsame : ∀ x (o' : Overlay), o'.about x = o.about x →
      (r.shown o').entity? x = (r.shown o).entity? x := by
    intro x o' h
    rw [entity?_shown, entity?_shown, h]
  refine ⟨entity?_shown r o, ?_, hsame, ?_, ?_⟩
  · intro x h
    rw [entity?_shown, h]
    rfl
  · intro o' h
    exact Entities.ext_entity? fun x => hsame x o' (h x)
  · intro e x h
    rw [entity?_shown, entity?_shown, entity?_apply_of_ne r h]

/-- A copy with two puzzles and their round. -/
def pool : Replica where
  entities := .ofLists [{ id := ⟨1⟩, name := "Fish", round := ⟨2⟩ },
    { id := ⟨2⟩, name := "Crab", round := ⟨2⟩ }] [{ id := ⟨2⟩, name := "Ocean" }]
  watermark := ⟨4⟩

/-- The server took a new name for puzzle 1. Puzzle 2 is being deleted, and its status set after
that; the round gets a new name meanwhile. -/
def ownWrites : Overlay :=
  ((((Overlay.empty.confirm ⟨7⟩ (.patchPuzzle ⟨1⟩ { name := some "Whale" }) ⟨4⟩).1.addPending
    (.deletePuzzle ⟨2⟩)).1.addPending
    (.patchRound ⟨2⟩ { name := some "Reef" })).1.addPending
    (.patchPuzzle ⟨2⟩ (.ofStatus .working))).1

/-- The same, with the new name of the round first. -/
def ownWritesTurned : Overlay :=
  ((((Overlay.empty.confirm ⟨7⟩ (.patchPuzzle ⟨1⟩ { name := some "Whale" }) ⟨4⟩).1.addPending
    (.patchRound ⟨2⟩ { name := some "Reef" })).1.addPending
    (.deletePuzzle ⟨2⟩)).1.addPending
    (.patchPuzzle ⟨2⟩ (.ofStatus .working))).1

/-- A status alone makes no puzzle, so the deleted one stays away. One write more on it does not
show on puzzle 1, nor does the order of the round's name and the deletion, and the end of the
round leaves puzzle 1 with its new name. -/
theorem whale_and_reef_are_shown_apart :
    let more := (ownWrites.addPending (.deletePuzzle ⟨2⟩)).1
    (pool.shown ownWrites).puzzles.get? ⟨2⟩ = none ∧
    ownWrites.about (.puzzle ⟨3⟩) = [] ∧ (pool.shown ownWrites).puzzles.get? ⟨3⟩ = none ∧
    (pool.shown more).puzzles.get? ⟨1⟩ = (pool.shown ownWrites).puzzles.get? ⟨1⟩ ∧
    ownWritesTurned ≠ ownWrites ∧ pool.shown ownWritesTurned = pool.shown ownWrites ∧
    (pool.apply ⟨⟨5⟩, .deleteRound ⟨2⟩⟩).2 = .changed ∧
    ((pool.apply ⟨⟨5⟩, .deleteRound ⟨2⟩⟩).1.shown ownWrites).puzzles.get? ⟨1⟩ =
      (pool.shown ownWrites).puzzles.get? ⟨1⟩ ∧
    ((pool.shown ownWrites).puzzles.get? ⟨1⟩).map (·.name) = some "Whale" := by
  intro more
  obtain ⟨hfold, hunnamed, hothers, horder, hchange⟩ :=
    each_entity_is_shown_on_its_own pool ownWrites
  have hsame : ∀ x, ownWritesTurned.about x = ownWrites.about x := by
    intro x
    by_cases hround : x = .round ⟨2⟩
    · subst hround
      decide
    · have hother : (Edit.patchRound ⟨2⟩ { name := some "Reef" }).subject ≠ x :=
        fun h => hround h.symm
      change [_, Edit.patchRound ⟨2⟩ { name := some "Reef" }, _, _].filter _ =
        [_, _, Edit.patchRound ⟨2⟩ { name := some "Reef" }, _].filter _
      simp [List.filter_cons, hother]
  have hgone : (pool.shown ownWrites).puzzles.get? ⟨2⟩ = none := (hfold (.puzzle ⟨2⟩)).trans rfl
  have hnone : ownWrites.about (.puzzle ⟨3⟩) = [] := by decide
  have hwhale : ((pool.shown ownWrites).puzzles.get? ⟨1⟩).map (·.name) = some "Whale" :=
    (congrArg (Option.map Puzzle.name) (hfold (.puzzle ⟨1⟩))).trans (by decide)
  exact ⟨hgone, hnone, (hunnamed _ hnone).trans rfl, hothers (.puzzle ⟨1⟩) more (by decide),
    by decide, horder _ hsame, by decide,
    hchange ⟨⟨5⟩, .deleteRound ⟨2⟩⟩ (.puzzle ⟨1⟩) (by decide), hwhale⟩

end Replica

end HuntBoard
