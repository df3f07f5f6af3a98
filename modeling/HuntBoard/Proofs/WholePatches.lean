-- A patch that sets every field shows the entity that it was made from, whatever stood there
-- before. So what the server answers a creation with is shown as it is.
import HuntBoard.Proofs.Entities
import HuntBoard.Proofs.Subjects
import HuntBoard.Proofs.WriteRace

namespace HuntBoard

/-! ## Entities under their own ids -/

/-- A value has the id that it stands under. -/
def Subject.IsOwn : (x : Subject) → x.Value → Prop
  | .puzzle id, p => p.id = id
  | .round id, r => r.id = id

theorem Entities.Keyed.isOwn {s : Entities} (h : s.Keyed) (x : Subject) :
    ∀ value, s.entity? x = some value → x.IsOwn value := by
  cases x with
  | puzzle id => exact h.puzzles id
  | round id => exact h.rounds id

namespace Edit

/-- An edit keeps the id of what is there, and what it makes anew has the id that it is put
under. -/
theorem isOwn_on {x : Subject} {value : Option x.Value} (e : Edit)
    (h : ∀ v, value = some v → x.IsOwn v) : ∀ v, e.on x value = some v → x.IsOwn v := by
  intro v hv
  cases x with
  | puzzle id =>
    cases e with
    | patchPuzzle id' patch =>
      cases value with
      | some p =>
        obtain rfl := Option.some.inj hv
        exact h p rfl
      | none => exact PuzzlePatch.toPuzzle?_id hv
    | deletePuzzle id' => cases hv
    | patchRound id' patch => exact h v hv
    | deleteRound id' => exact h v hv
  | round id =>
    cases e with
    | patchPuzzle id' patch => exact h v hv
    | deletePuzzle id' => exact h v hv
    | patchRound id' patch =>
      cases value with
      | some r =>
        obtain rfl := Option.some.inj hv
        exact h r rfl
      | none => exact RoundPatch.toRound?_id hv
    | deleteRound id' => cases hv

theorem isOwn_foldl_on {x : Subject} {value : Option x.Value} (es : List Edit)
    (h : ∀ v, value = some v → x.IsOwn v) :
    ∀ v, es.foldl (fun value e => e.on x value) value = some v → x.IsOwn v := by
  induction es generalizing value with
  | nil => exact h
  | cons e es ih => exact ih (e.isOwn_on h)

end Edit

/-! ## Whole patches -/

namespace Entity

def subject : Entity → Subject
  | puzzle p => .puzzle p.id
  | round r => .round r.id

def value : (v : Entity) → v.subject.Value
  | puzzle p => p
  | round r => r

/-- The edit that sets every field to that of the entity. -/
def wholePatch : Entity → Edit
  | puzzle p => .patchPuzzle p.id (.ofPuzzle p)
  | round r => .patchRound r.id (.ofRound r)

theorem wholePatch_subject (v : Entity) : v.wholePatch.subject = v.subject := by
  cases v <;> rfl

/-- Laid over another version of the entity, or over nothing, the whole patch makes the entity. -/
theorem on_wholePatch (v : Entity) {value : Option v.subject.Value}
    (h : ∀ old, value = some old → v.subject.IsOwn old) :
    v.wholePatch.on v.subject value = some v.value := by
  cases v with
  | puzzle p =>
    cases value with
    | some old => exact congrArg some (PuzzlePatch.ofPuzzle_apply p old (h old rfl))
    | none => exact congrArg some (PuzzlePatch.ofPuzzle_apply p _ rfl)
  | round r =>
    cases value with
    | some old => exact congrArg some (RoundPatch.ofRound_apply r old (h old rfl))
    | none => exact congrArg some (RoundPatch.ofRound_apply r _ rfl)

end Entity

namespace Replica

variable {r : Replica} {o : Overlay}

theorem Reached.entity?_shown_of_wholePatch (hr : r.Reached) {v : Entity}
    (h : (o.about v.subject).getLast? = some v.wholePatch) :
    (r.shown o).entity? v.subject = some v.value := by
  obtain ⟨earlier, hlast⟩ := List.getLast?_eq_some_iff.1 h
  rw [entity?_shown, hlast, List.foldl_append]
  exact v.on_wholePatch (Edit.isOwn_foldl_on earlier (hr.keyed.isOwn v.subject))

end Replica

/-! ## The last edit of an entity -/

namespace Overlay

variable {o : Overlay} {key : WriteKey} {e : Edit}

/-- An edit with none of its entity behind its key is the last that names the entity. -/
theorem getLast?_about (hget : o.get? key = some e)
    (hlast : ∀ k later, o.get? k = some later → later.subject = e.subject →
      compare k key ≠ .gt) : (o.about e.subject).getLast? = some e := by
  obtain ⟨before, behind, hsplit⟩ :=
    List.append_of_mem ((KeyedMap.get?_eq_some_iff o.edits key e).1 hget)
  have hascending := o.edits.ascending
  rw [hsplit, Entries.Ascending, List.pairwise_append, List.pairwise_cons] at hascending
  have hnone : (behind.map (·.2)).filter (·.subject = e.subject) = [] := by
    rw [List.filter_eq_nil_iff]
    intro edit hedit hsame
    obtain ⟨⟨k, later⟩, hmem, rfl⟩ := List.mem_map.1 hedit
    have hlt : compare key k = .lt := hascending.2.1.1 (k, later) hmem
    have hk : o.get? k = some later := by
      rw [get?, KeyedMap.get?_eq_some_iff, hsplit]
      simp [hmem]
    exact hlast k later hk (of_decide_eq_true hsame) (Std.OrientedCmp.gt_iff_lt.2 hlt)
  have htoList : o.toList = before ++ (key, e) :: behind := hsplit
  rw [about, htoList, List.map_append, List.map_cons, List.filter_append,
    List.filter_cons_of_pos (by simp), hnone, List.getLast?_concat]

/-- What was just confirmed as a change is the last that names its entity, if none stands behind
that change. -/
theorem getLast?_about_confirm {c w : ChangeId} (hc : w < c)
    (hlast : ∀ k later, o.get? k = some later → later.subject = e.subject →
      compare k (.confirmed c) ≠ .gt) :
    ((o.confirm c e w).1.about e.subject).getLast? = some e := by
  have hget : (o.confirm c e w).1.get? (.confirmed c) = some e := by
    rw [get?_confirm, if_pos ⟨rfl, ChangeId.not_le.2 hc⟩]
  apply getLast?_about hget
  intro k later hk hsame
  rw [get?_confirm] at hk
  split at hk
  · rename_i hkey
    rw [hkey.1]
    simp
  · exact hlast k later hk hsame

end Overlay

/-! ## The law -/

namespace Tab

/-- A creation that the server accepts beyond the watermark is shown as the server answers it, if
no write that names the new entity stands behind it. -/
theorem entity?_shown_of_created {t : Tab} (ht : t.replica.Reached) {w : OpenWrite}
    {reply : WriteReply} {v : Entity} (hedit : reply.edit? w.request = some v.wholePatch)
    (hnew : t.replica.watermark < reply.changeId)
    (hlast : ∀ k later, t.overlay.get? k = some later → later.subject = v.subject →
      compare k (.confirmed reply.changeId) ≠ .gt) :
    (t.settled w (.ok reply)).1.shown.entity? v.subject = some v.value := by
  have haccepted : Settlement.accepted? ⟨w, .ok reply⟩ = some (reply.changeId, v.wholePatch) := by
    simp [Settlement.accepted?, Except.toOption, hedit]
  have hholding : (t.settled w (.ok reply)).1.holding =
      ⟨t.replica, ((t.overlay.forget w.pending).confirm reply.changeId v.wholePatch
        t.replica.watermark).1⟩ := by
    rw [t.settled_holding ⟨w, .ok reply⟩, Holding.settle, haccepted]
    rfl
  have hreplica : (t.settled w (.ok reply)).1.replica = t.replica :=
    congrArg Holding.replica hholding
  have hoverlay : (t.settled w (.ok reply)).1.overlay =
      ((t.overlay.forget w.pending).confirm reply.changeId v.wholePatch t.replica.watermark).1 :=
    congrArg Holding.overlay hholding
  rw [shown, hreplica, hoverlay]
  apply ht.entity?_shown_of_wholePatch
  rw [← v.wholePatch_subject]
  apply Overlay.getLast?_about_confirm hnew
  intro k later hk hsame
  rw [Overlay.get?_forget] at hk
  split at hk
  · cases hk
  · exact hlast k later hk (hsame.trans v.wholePatch_subject)

end Tab

namespace Replica

/-- If the last edit that names a puzzle is the patch that was made from one, that puzzle is shown,
exactly as it is, whatever the server's state holds under its id, and whatever edits stand before.
It is the same with rounds. So what the server answers a creation with, as a change beyond the
watermark, is shown as it is, if no write that names it stands behind that change. -/
theorem a_whole_patch_shows_what_it_was_made_from {r : Replica} (hr : r.Reached)
    (o : Overlay) :
    (∀ p : Puzzle, (o.about (.puzzle p.id)).getLast? = some (.patchPuzzle p.id (.ofPuzzle p)) →
      (r.shown o).puzzles.get? p.id = some p) ∧
    (∀ q : Round, (o.about (.round q.id)).getLast? = some (.patchRound q.id (.ofRound q)) →
      (r.shown o).rounds.get? q.id = some q) ∧
    ∀ (t : Tab) (w : OpenWrite) (reply : WriteReply), t.replica = r → t.overlay = o →
      r.watermark < reply.changeId →
      (∀ (n : NewPuzzle) (p : Puzzle),
        w.request = .createPuzzle n → reply.entity = some (.puzzle p) →
        (∀ k later, o.get? k = some later → later.subject = .puzzle p.id →
          compare k (.confirmed reply.changeId) ≠ .gt) →
        (t.settled w (.ok reply)).1.shown.puzzles.get? p.id = some p) ∧
      ∀ (n : NewRound) (q : Round),
        w.request = .createRound n → reply.entity = some (.round q) →
        (∀ k later, o.get? k = some later → later.subject = .round q.id →
          compare k (.confirmed reply.changeId) ≠ .gt) →
        (t.settled w (.ok reply)).1.shown.rounds.get? q.id = some q := by
  refine ⟨fun p h => ?_, fun q h => ?_, ?_⟩
  · exact hr.entity?_shown_of_wholePatch (v := .puzzle p) h
  · exact hr.entity?_shown_of_wholePatch (v := .round q) h
  · rintro t w reply rfl rfl hnew
    constructor
    · intro n p hrequest hentity hlast
      have hedit : reply.edit? w.request = some (Entity.puzzle p).wholePatch := by
        simp [WriteReply.edit?, hrequest, hentity, Entity.wholePatch]
      exact Tab.entity?_shown_of_created hr hedit hnew hlast
    · intro n q hrequest hentity hlast
      have hedit : reply.edit? w.request = some (Entity.round q).wholePatch := by
        simp [WriteReply.edit?, hrequest, hentity, Entity.wholePatch]
      exact Tab.entity?_shown_of_created hr hedit hnew hlast

def whale : Puzzle :=
  { id := ⟨1⟩, name := "Whale", answer := "MOBY", round := ⟨2⟩, status := .solved, isMeta := true }

def reef : Round := { id := ⟨2⟩, name := "Reef", emoji := "🪸", sort := -1 }

def squid : Puzzle := { id := ⟨9⟩, name := "Squid", round := ⟨2⟩, note := "eight arms" }

def abyss : Round := { id := ⟨8⟩, name := "Abyss", special := true }

/-- A copy with another version of the puzzle and none of the round. -/
def shallows : Replica :=
  ((ofSnapshot {
    changeId := ⟨4⟩
    puzzles := [{ id := ⟨1⟩, name := "Fish", round := ⟨3⟩ }] }).applyAll
    [⟨⟨5⟩, .deleteRound ⟨2⟩⟩]).1

theorem shallows_reached : shallows.Reached := (Reached.opened _).applyAll _

/-- The puzzle is deleted, and then made whole again, as the round is. -/
def madeWhole : Overlay :=
  (((Overlay.empty.confirm ⟨6⟩ (.deletePuzzle ⟨1⟩) ⟨5⟩).1.addPending
    (.patchPuzzle ⟨1⟩ (.ofPuzzle whale))).1.addPending (.patchRound ⟨2⟩ (.ofRound reef))).1

/-- The whole patches are shown, and so is what the server answers to two creations, the one made
of a new round and the other of a puzzle that an earlier change is to take away. -/
theorem whale_and_squid_are_shown_whole :
    let early := (Overlay.empty.confirm ⟨6⟩ (.deletePuzzle ⟨9⟩) ⟨5⟩).1
    let t : Tab := { replica := shallows, overlay := early }
    (shallows.shown madeWhole).puzzles.get? ⟨1⟩ = some whale ∧
    (shallows.shown madeWhole).rounds.get? ⟨2⟩ = some reef ∧
    (t.settled ⟨.createPuzzle ⟨"Squid", ⟨2⟩, ""⟩, none⟩
      (.ok ⟨⟨7⟩, some (.puzzle squid)⟩)).1.shown.puzzles.get? ⟨9⟩ = some squid ∧
    (t.settled ⟨.createRound { name := "Abyss", emoji := "", special := true }, none⟩
      (.ok ⟨⟨7⟩, some (.round abyss)⟩)).1.shown.rounds.get? ⟨8⟩ = some abyss := by
  intro early t
  obtain ⟨hpuzzle, hround, -⟩ :=
    a_whole_patch_shows_what_it_was_made_from shallows_reached madeWhole
  obtain ⟨-, -, hcreated⟩ := a_whole_patch_shows_what_it_was_made_from shallows_reached early
  -- The only write that is shown stands in front of the changes that the creations became.
  have hearly : ∀ k later, early.get? k = some later → compare k (.confirmed ⟨7⟩) ≠ .gt := by
    intro k later hk
    have hmem : (k, later) ∈ early.toList := (KeyedMap.get?_eq_some_iff _ k later).1 hk
    rw [show early.toList = [(.confirmed ⟨6⟩, .deletePuzzle ⟨9⟩)] by decide] at hmem
    obtain ⟨rfl, -⟩ := Prod.mk.inj (List.mem_singleton.1 hmem)
    decide
  refine ⟨hpuzzle whale (by decide), hround reef (by decide), ?_, ?_⟩
  · exact (hcreated t _ ⟨⟨7⟩, some (.puzzle squid)⟩ rfl rfl (by decide)).1 _ squid rfl rfl
      fun k later hk _ => hearly k later hk
  · exact (hcreated t _ ⟨⟨7⟩, some (.round abyss)⟩ rfl rfl (by decide)).2 _ abyss rfl rfl
      fun k later hk _ => hearly k later hk

end Replica

end HuntBoard
