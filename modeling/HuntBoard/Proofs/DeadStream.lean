-- A dead stream. A tab that shows the stream as dead shows it so as long as the hub can speak
-- to it. When it loses the hub after that, it shows a stream that is merely down.
import HuntBoard.Proofs.Announcements
import HuntBoard.Proofs.TabSteps

namespace HuntBoard

open HubEffect HubMessage

/-! ## States among inputs -/

namespace TabInput

/-- The state of the stream that an input makes a tab show. -/
def linkState? : TabInput → Option LinkState
  | .message m => m.state?
  | .hubLost => some .disconnected
  | _ => none

/-- The states that inputs make a tab show, in order. -/
def linkStates (is : List TabInput) : List LinkState := is.filterMap linkState?

def isLoss : TabInput → Bool
  | .hubLost => true
  | _ => false

/-- When the hub is lost, it does not speak any more. -/
def LostForGood (is : List TabInput) : Prop :=
  is.Pairwise fun i j => i.isLoss → j.heard? = none

instance (is : List TabInput) : Decidable (LostForGood is) :=
  inferInstanceAs (Decidable (List.Pairwise _ _))

variable {i : TabInput} {is : List TabInput} {s : LinkState}

theorem linkStates_append (is js : List TabInput) :
    linkStates (is ++ js) = linkStates is ++ linkStates js := List.filterMap_append

/-- A state that is shown was heard, or the hub is lost. -/
theorem mem_linkStates (hs : s ∈ linkStates is) :
    s ∈ states (is.filterMap heard?) ∨ s = .disconnected ∧ .hubLost ∈ is := by
  obtain ⟨i, hi, hshows⟩ := List.mem_filterMap.1 hs
  cases i with
  | message m => exact .inl (List.mem_filterMap.2 ⟨m, List.mem_filterMap.2 ⟨_, hi, rfl⟩, hshows⟩)
  | hubLost => exact .inr ⟨(Option.some.inj hshows).symm, hi⟩
  | _ => simp [linkState?] at hshows

variable {before after : List TabInput}

/-- After the loss nothing is heard, so the stream is shown as down to the end. -/
theorem getLast?_of_loss (hlost : LostForGood (before ++ after)) (hloss : .hubLost ∈ after) :
    (linkStates (before ++ after)).getLast? = some .disconnected := by
  obtain ⟨kept, rest, rfl⟩ := List.append_of_mem hloss
  rw [← List.append_assoc] at hlost ⊢
  have hsilent : rest.filterMap heard? = [] := List.filterMap_eq_nil_iff.2 fun i hi =>
    (List.pairwise_cons.1 (List.pairwise_append.1 hlost).2.1).1 i hi rfl
  have hcons : linkStates (.hubLost :: rest) = [.disconnected] ++ linkStates rest := rfl
  rw [linkStates_append, hcons, ← List.append_assoc]
  refine LinkState.getLast?_append_of_forall (fun s hs => ?_) fun _ => List.getLast?_concat
  rcases mem_linkStates hs with hs | ⟨hs, -⟩
  · simp [hsilent, states] at hs
  · exact hs

/-- What a tab hears of the state after it heard of the end is the end again, since no hub
takes that back. -/
theorem dead_of_heard {c : HubConfig} {said : List HubInput} {inbox : Inbox}
    (hheard : (before ++ after).filterMap heard? <+: mail inbox (Hub.life c said).2)
    (hend : .dead ∈ states (before.filterMap heard?)) :
    ∀ s ∈ states (after.filterMap heard?), s = .dead := by
  have hsent := Hub.dead_to_the_end (·.inbox = inbox) c said
  rw [Parcel.statesOf, ← Hub.mail_sent] at hsent
  have hpairs := hsent.sublist (hheard.sublist.filterMap state?)
  rw [List.filterMap_append, List.filterMap_append, List.pairwise_append] at hpairs
  exact fun s hs => hpairs.2.2 _ hend s hs rfl

end TabInput

open TabInput

namespace Tab

/-! ## What a tab shows of the stream -/

variable (t : Tab)

theorem reload_connection (r : ReloadReason) : (t.reload r).1.connection = t.connection := by
  rw [(t.reload_frame r).1]

theorem setConnection_connection (s : LinkState) : (t.setConnection s).1.connection = s := by
  unfold setConnection
  split
  · exact reload_connection ..
  · rfl

theorem echo_connection (c : ChangeId) : (t.echo c).connection = t.connection := by
  unfold echo
  dsimp only
  split <;> rfl

theorem sync_connection (e : SyncEvent) : (t.sync e).1.connection = t.connection := by
  unfold sync
  dsimp only
  split
  · exact t.echo_connection _
  · exact t.echo_connection _
  · exact (reload_connection ..).trans (t.echo_connection _)

theorem forget_connection (w : OpenWrite) : (t.forget w).connection = t.connection := by
  unfold forget
  split <;> rfl

theorem confirm_connection (request : WriteRequest) (reply : WriteReply) :
    (t.confirm request reply).connection = t.connection := by
  unfold confirm
  split
  · split <;> rfl
  · rfl

theorem settled_connection (w : OpenWrite) (outcome : Except WriteFault WriteReply) :
    (t.settled w outcome).1.connection = t.connection := by
  cases outcome with
  | ok reply => exact (confirm_connection ..).trans (t.forget_connection w)
  | error f =>
    simp only [settled, andThen_fst]
    split
    · exact (reload_connection ..).trans (t.forget_connection w)
    · exact t.forget_connection w

/-- A tab shows what an input makes it show, and goes on to show it. -/
theorem step_connection (i : TabInput) :
    (t.step i).1.connection = i.linkState?.getD t.connection := by
  cases i with
  | message m =>
    cases m with
    | sync e => exact t.sync_connection e
    | status s => exact t.setConnection_connection s
    | _ => rfl
  | hubLost => exact setConnection_connection ..
  | write request optimistic =>
    simp only [step, write]
    split <;> rfl
  | settled w outcome => exact t.settled_connection w outcome
  | activity subject active => rfl

theorem run_connection (is : List TabInput) :
    (t.run is).1.connection = (linkStates is).getLast?.getD t.connection := by
  induction is generalizing t with
  | nil => rfl
  | cons i is ih =>
    rw [run_cons, andThen_fst, ih, step_connection]
    unfold linkStates
    rw [List.filterMap_cons]
    cases i.linkState? with
    | none => rfl
    | some s =>
      rw [List.getLast?_cons]
      rfl

/-! ## The law -/

/-- A tab hears what a hub has for its inbox, or as much of that as comes before the hub is
lost, among inputs of its own. Once it shows that the stream is dead it goes on to do so, but
when the hub is lost, it shows that the stream is down. -/
theorem dead_is_shown_until_the_hub_is_lost (c : HubConfig) (said : List HubInput)
    (inbox : Inbox) (s : Snapshot) (before after : List TabInput)
    (hheard : (before ++ after).filterMap heard? <+: mail inbox (Hub.life c said).2)
    (hlost : LostForGood (before ++ after))
    (hdead : ((ofSnapshot s).run before).1.connection = .dead) :
    let t := ((ofSnapshot s).run (before ++ after)).1
    (.hubLost ∉ after → t.connection = .dead) ∧
    (.hubLost ∈ after → t.connection = .disconnected) := by
  intro t
  have hshown : (linkStates before).getLast? = some .dead := by
    rw [run_connection] at hdead
    cases hlast : (linkStates before).getLast? with
    | none => simp [hlast, ofSnapshot] at hdead
    | some x => simpa [hlast] using hdead
  have ht : t.connection = (linkStates (before ++ after)).getLast?.getD .disconnected :=
    run_connection ..
  rw [ht]
  refine ⟨fun hkept => ?_, fun hloss => ?_⟩
  · have hend : .dead ∈ states (before.filterMap heard?) := by
      rcases mem_linkStates (List.mem_of_getLast? hshown) with hend | ⟨hother, -⟩
      · exact hend
      · simp at hother
    rw [linkStates_append, LinkState.getLast?_append_of_forall (fun x hx => ?_) fun _ => hshown]
    · rfl
    · rcases mem_linkStates hx with hx | ⟨-, hloss⟩
      · exact dead_of_heard hheard hend x hx
      · exact absurd hloss hkept
  · rw [getLast?_of_loss hlost hloss]
    rfl

/-- A tab attaches, and the stream comes up and dies. -/
def shortLife : List HubInput :=
  [.fromTab (.start ⟨1⟩ none) (some 0), .link 1 .opened,
    .link 1 (.ended (.closed replayGoneCode ""))]

/-- All that a tab hears of that. -/
def sadNews : List TabInput := (mail 0 (Hub.life {} shortLife).2).map .message

/-- The user works on, and the stream is shown as dead. Only when the hub is lost, it is not. -/
theorem the_end_is_shown_while_the_user_works_on :
    let t := ofSnapshot .empty
    (t.run (sadNews ++ [.activity ⟨4⟩ true])).1.connection = .dead ∧
    (t.run (sadNews ++ [.activity ⟨4⟩ true, .hubLost, .activity ⟨4⟩ false])).1.connection =
      .disconnected := by
  intro t
  have hdead : (t.run sadNews).1.connection = .dead := by decide
  have hlaw := fun after => dead_is_shown_until_the_hub_is_lost {} shortLife 0 .empty sadNews after
  constructor
  · exact (hlaw [.activity ⟨4⟩ true] (by decide) (by decide) hdead).1 (by simp)
  · exact (hlaw [.activity ⟨4⟩ true, .hubLost, .activity ⟨4⟩ false] (by decide) (by decide) hdead).2
      (by simp)

/-- So what is dead for ever is shown, and told, to be down, and might come back. -/
theorem a_lost_hub_makes_the_dead_seem_down :
    let t := ((ofSnapshot .empty).run sadNews).1
    t.connection = .dead ∧ (t.step .hubLost).1.connection = .disconnected ∧
    (t.step .hubLost).2 = [.tell (.connection .disconnected)] := by
  intro t
  have hdead : t.connection = .dead := by decide
  exact ⟨hdead, rfl, rfl⟩

end Tab

end HuntBoard
