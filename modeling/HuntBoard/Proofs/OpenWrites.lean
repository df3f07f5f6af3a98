-- The writes of a tab that are under way: those it asked the server for and that
-- have no outcome yet.
import HuntBoard.Tab
import HuntBoard.Proofs.TabSteps

namespace HuntBoard

/-- The writes that effects ask the server for, in order. -/
def TabEffect.asks (es : List TabEffect) : List OpenWrite :=
  es.filterMap fun
    | .ask w => some w
    | _ => none

open TabEffect

@[simp] theorem TabEffect.asks_append (es fs : List TabEffect) :
    asks (es ++ fs) = asks es ++ asks fs := List.filterMap_append

/-- A write that is shown before it has an outcome is shown under a number of the
tab's own. -/
def OpenWrite.Numbered (w : OpenWrite) : Prop := ∀ key, w.pending = some key → ∃ n, key = .pending n

namespace Tab

variable (t : Tab)

/-- The writes that have no outcome after an input, from those before it. -/
def unsettled (ws : List OpenWrite) : TabInput → List OpenWrite
  | .settled w _ => ws.erase w
  | _ => ws

/-- The writes under way after an input, from those before it. -/
def underWay (ws : List OpenWrite) (i : TabInput) : List OpenWrite :=
  unsettled ws i ++ asks (t.step i).2

/-- A tab as it can come to be, with its writes under way. These and no others
have outcomes. -/
inductive Reached : Tab → List OpenWrite → Prop
  | opened (s : Snapshot) : Reached (.ofSnapshot s) []
  | step {t : Tab} {ws : List OpenWrite} (h : Reached t ws) (i : TabInput)
      (hi : ∀ w outcome, i = .settled w outcome → w ∈ ws) :
      Reached (t.step i).1 (t.underWay ws i)
  | refreshed {t : Tab} {ws : List OpenWrite} (h : Reached t ws) (now : Instant) :
      Reached (t.refresh now) ws

/-! ## Asking the server -/

theorem asks_reload (r : ReloadReason) : asks (t.reload r).2 = [] := by
  unfold reload
  split <;> rfl

theorem asks_setConnection (s : LinkState) : asks (t.setConnection s).2 = [] := by
  unfold setConnection
  rw [andThen_snd, asks_append]
  split
  · rw [asks_reload]
    rfl
  · rfl

theorem asks_sync (e : SyncEvent) : asks (t.sync e).2 = [] := by
  unfold sync
  dsimp only
  split
  · rfl
  · rfl
  · exact asks_reload ..

theorem asks_settled (w : OpenWrite) (outcome : Except WriteFault WriteReply) :
    asks (t.settled w outcome).2 = [] := by
  cases outcome with
  | ok reply => rfl
  | error f =>
    simp only [settled, andThen_snd, asks_append]
    split
    · rw [asks_reload]
      rfl
    · rfl

/-- Only what the user writes asks the server for anything, and that is numbered. -/
theorem numbered_of_asks {i : TabInput} {w : OpenWrite} (hw : w ∈ asks (t.step i).2) :
    w.Numbered := by
  cases i with
  | message m =>
    cases m with
    | sync e => simp [step, hear, asks_sync] at hw
    | status s => simp [step, hear, asks_setConnection] at hw
    | _ => simp [step, hear, asks] at hw
  | hubLost => simp [step, hubLost, asks_setConnection] at hw
  | settled w' outcome => simp [step, asks_settled] at hw
  | activity subject active => simp [step, asks] at hw
  | write request optimistic =>
    simp only [step, write] at hw
    split at hw
    · obtain rfl : w = ⟨request, some (.pending t.overlay.nextPending)⟩ := by
        simpa [asks, Overlay.addPending] using hw
      intro key hkey
      exact ⟨_, (Option.some.inj hkey).symm⟩
    · obtain rfl : w = ⟨request, none⟩ := by simpa [asks] using hw
      intro key hkey
      simp at hkey

theorem mem_of_mem_unsettled {ws : List OpenWrite} {i : TabInput} {w : OpenWrite}
    (hw : w ∈ unsettled ws i) : w ∈ ws := by
  unfold unsettled at hw
  split at hw
  · exact List.mem_of_mem_erase hw
  · exact hw

theorem Reached.numbered {t : Tab} {ws : List OpenWrite} (h : Reached t ws) :
    ∀ w ∈ ws, w.Numbered := by
  induction h with
  | opened s => simp
  | @step t ws _ i _ ih =>
    intro w hw
    rw [underWay, List.mem_append] at hw
    rcases hw with hw | hw
    · exact ih w (mem_of_mem_unsettled hw)
    · exact t.numbered_of_asks hw
  | refreshed _ _ ih => exact ih

end Tab

end HuntBoard
