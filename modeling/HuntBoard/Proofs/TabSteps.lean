-- What one input does to a tab: to its replica, and to the one reload that it
-- may ask for. What many inputs do follows.
import HuntBoard.Tab
import HuntBoard.Proofs.Replica

namespace HuntBoard

/-! ## Reading inputs and effects -/

/-- What the hub says by an input. -/
def TabInput.heard? : TabInput → Option HubMessage
  | .message m => some m
  | _ => none

/-- Why an input makes any tab ask to start over, whatever its replica is. -/
def TabInput.ownCause? : TabInput → Option ReloadReason
  | .message (.status .dead) => some .dead
  | .settled _ (.error (.server .unauthorized)) => some .unauthorized
  | _ => none

def TabEffect.reload? : TabEffect → Option ReloadReason
  | .tell (.reload r) => some r
  | _ => none

/-- The reloads that effects ask for, in order. -/
def TabEffect.reloads (es : List TabEffect) : List ReloadReason := es.filterMap reload?

open TabEffect

@[simp] theorem TabEffect.reloads_nil : reloads [] = [] := rfl

@[simp] theorem TabEffect.reloads_append (es fs : List TabEffect) :
    reloads (es ++ fs) = reloads es ++ reloads fs := List.filterMap_append

namespace Replica

/-- The replica after an input of its tab. -/
def heed (r : Replica) : TabInput → Replica
  | .message (.sync e) => (r.apply e).1
  | .message (.settings s) => r.setSettings s
  | _ => r

/-- Why an input makes the tab of a replica ask to start over. -/
def cause? (r : Replica) : TabInput → Option ReloadReason
  | .message (.sync e) =>
    match (r.apply e).2 with
    | .drift expected got => some (.drift expected got)
    | _ => none
  | i => i.ownCause?

/-- The replica after inputs of its tab. -/
def heedAll (r : Replica) (is : List TabInput) : Replica := is.foldl heed r

/-- All that makes a tab ask to start over while it takes inputs, in order. -/
def causes (r : Replica) : List TabInput → List ReloadReason
  | [] => []
  | i :: rest => (r.cause? i).toList ++ (r.heed i).causes rest

@[simp] theorem heedAll_cons (r : Replica) (i : TabInput) (is : List TabInput) :
    r.heedAll (i :: is) = (r.heed i).heedAll is := rfl

theorem causes_append (r : Replica) (is js : List TabInput) :
    r.causes (is ++ js) = r.causes is ++ (r.heedAll is).causes js := by
  induction is generalizing r with
  | nil => rfl
  | cons i is ih => simp [causes, ih]

end Replica

namespace Tab

variable (t : Tab)

@[simp] theorem andThen_fst (o : Outcome) (f : Tab → Outcome) : (o.andThen f).1 = (f o.1).1 := rfl

@[simp] theorem andThen_snd (o : Outcome) (f : Tab → Outcome) :
    (o.andThen f).2 = o.2 ++ (f o.1).2 := rfl

/-! ## The parts of a step -/

/-- A tab that asks to start over changes in nothing else. -/
theorem reload_frame (r : ReloadReason) :
    (t.reload r).1 = { t with reloaded := true } ∧
    reloads (t.reload r).2 = if t.reloaded then [] else [r] := by
  unfold reload
  split
  · rename_i h
    exact ⟨by rw [← h], rfl⟩
  · exact ⟨rfl, rfl⟩

/-- What an input does to the replica, and whether the tab asks to start over, is
known from the replica alone. -/
structure Heeds (t : Tab) (o : Outcome) (r : Replica) (cause : Option ReloadReason) : Prop where
  replica : o.1.replica = r
  reloaded : o.1.reloaded = (t.reloaded || cause.isSome)
  reloads : reloads o.2 = if t.reloaded then [] else cause.toList

theorem heeds_quiet {o : Outcome} (hr : o.1.replica = t.replica) (hl : o.1.reloaded = t.reloaded)
    (ho : reloads o.2 = []) : t.Heeds o t.replica none :=
  ⟨hr, by simp [hl], by simp [ho]⟩

theorem heeds_reload (r : ReloadReason) : t.Heeds (t.reload r) t.replica (some r) := by
  obtain ⟨ht, ho⟩ := t.reload_frame r
  exact ⟨by rw [ht], by rw [ht]; simp, ho⟩

theorem setConnection_heeds (s : LinkState) :
    t.Heeds (t.setConnection s) t.replica (if s = .dead then some .dead else none) := by
  unfold setConnection
  split
  · obtain ⟨hr, hl, ho⟩ := heeds_reload { t with connection := s } .dead
    exact ⟨hr, hl, ho⟩
  · exact t.heeds_quiet rfl rfl rfl

theorem echo_frame (c : ChangeId) :
    (t.echo c).replica = t.replica ∧ (t.echo c).reloaded = t.reloaded := by
  unfold echo
  dsimp only
  split <;> exact ⟨rfl, rfl⟩

theorem sync_heeds (e : SyncEvent) :
    t.Heeds (t.sync e) (t.replica.heed (.message (.sync e)))
      (t.replica.cause? (.message (.sync e))) := by
  obtain ⟨hr, hl⟩ := t.echo_frame e.changeId
  unfold sync Replica.heed Replica.cause?
  dsimp only
  rw [hr]
  rcases t.replica.apply_cases e with ⟨_, h⟩ | ⟨_, _, h⟩ | ⟨_, _, h⟩
  · rw [h]
    exact t.heeds_quiet hr hl rfl
  · rw [h]
    obtain ⟨hr', hl', ho'⟩ :=
      (t.echo e.changeId).heeds_reload (.drift t.replica.watermark.next e.changeId)
    exact ⟨hr'.trans hr, by rw [hl', hl], by rw [ho', hl]⟩
  · rw [h]
    exact ⟨rfl, by simp [hl], by simp⟩

theorem forget_frame (w : OpenWrite) :
    (t.forget w).replica = t.replica ∧ (t.forget w).reloaded = t.reloaded := by
  unfold forget
  split <;> exact ⟨rfl, rfl⟩

theorem confirm_frame (request : WriteRequest) (reply : WriteReply) :
    (t.confirm request reply).replica = t.replica ∧
    (t.confirm request reply).reloaded = t.reloaded := by
  unfold confirm
  split
  · split <;> exact ⟨rfl, rfl⟩
  · exact ⟨rfl, rfl⟩

theorem settled_heeds (w : OpenWrite) (outcome : Except WriteFault WriteReply) :
    t.Heeds (t.settled w outcome) t.replica (t.replica.cause? (.settled w outcome)) := by
  obtain ⟨hr, hl⟩ := t.forget_frame w
  cases outcome with
  | ok reply =>
    obtain ⟨hr', hl'⟩ := (t.forget w).confirm_frame w.request reply
    exact t.heeds_quiet (hr'.trans hr) (hl'.trans hl) rfl
  | error f =>
    by_cases hf : f = .server .unauthorized
    · subst hf
      obtain ⟨hr', hl', ho'⟩ := (t.forget w).heeds_reload .unauthorized
      refine ⟨hr'.trans hr, hl'.trans (by rw [hl]; rfl), ?_⟩
      simp only [settled, if_pos, andThen_snd, reloads_append, ho', hl]
      exact List.append_nil _
    · have hc : t.replica.cause? (.settled w (.error f)) = none := by
        change TabInput.ownCause? (.settled w (.error f)) = none
        unfold TabInput.ownCause?
        split <;> simp_all
      rw [hc]
      refine t.heeds_quiet ?_ ?_ ?_ <;> simp only [settled, if_neg hf, andThen_fst]
      · exact hr
      · exact hl
      · rfl

/-! ## One input -/

theorem write_frame (request : WriteRequest) (optimistic : Bool) :
    (t.write request optimistic).1.replica = t.replica ∧
    (t.write request optimistic).1.reloaded = t.reloaded ∧
    reloads (t.write request optimistic).2 = [] := by
  unfold write
  split <;> exact ⟨rfl, rfl, rfl⟩

theorem step_heeds (i : TabInput) :
    t.Heeds (t.step i) (t.replica.heed i) (t.replica.cause? i) := by
  cases i with
  | message m =>
    cases m with
    | sync e => exact t.sync_heeds e
    | status s =>
      have h := t.setConnection_heeds s
      cases s <;> exact h
    | settings s =>
      have hc : t.replica.cause? (.message (.settings s)) = none := rfl
      rw [hc]
      exact ⟨rfl, by simp [step, hear], by simp [step, hear, reloads, reload?]⟩
    | presence p => exact t.heeds_quiet rfl rfl rfl
    | users u => exact t.heeds_quiet rfl rfl rfl
  | hubLost =>
    obtain ⟨hr, hl, ho⟩ := setConnection_heeds { t with attached := false } .disconnected
    exact ⟨hr, hl, ho⟩
  | write request optimistic =>
    obtain ⟨hr, hl, ho⟩ := t.write_frame request optimistic
    exact t.heeds_quiet hr hl ho
  | settled w outcome => exact t.settled_heeds w outcome
  | activity subject active => exact t.heeds_quiet rfl rfl rfl

/-! ## Many inputs -/

@[simp] theorem run_nil : t.run [] = (t, []) := rfl

@[simp] theorem run_cons (i : TabInput) (is : List TabInput) :
    t.run (i :: is) = (t.step i).andThen fun t => t.run is := rfl

theorem run_replica (is : List TabInput) : (t.run is).1.replica = t.replica.heedAll is := by
  induction is generalizing t with
  | nil => rfl
  | cons i is ih => simp [ih, (t.step_heeds i).replica]

/-- Of all that makes a tab ask to start over, the first counts, and only once. -/
theorem run_reloads (is : List TabInput) :
    reloads (t.run is).2 = if t.reloaded then [] else (t.replica.causes is).take 1 := by
  induction is generalizing t with
  | nil => simp [Replica.causes]
  | cons i is ih =>
    obtain ⟨hr, hl, ho⟩ := t.step_heeds i
    rw [run_cons, andThen_snd, reloads_append, ih, hr, hl, ho, Replica.causes]
    cases t.reloaded <;> cases t.replica.cause? i <;> simp

end Tab

end HuntBoard
