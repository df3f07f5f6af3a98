-- The one connection to the server. Between inputs a hub hangs on one attempt, or waits for
-- one delay to run out, or has given up for good; nothing that comes in gets it stuck.
import HuntBoard.Proofs.HubSteps
import Mathlib.Data.List.Induction
import Mathlib.Data.List.Infix

namespace HuntBoard

/-! ## Reading effects -/

namespace HubEffect

/-- The attempts under way after an effect, the youngest first. -/
def carry (up : List Attempt) : HubEffect → List Attempt
  | .connect a _ => a :: up
  | .hangUp a => up.erase a
  | _ => up

/-- The attempts that effects start and do not let go of again. -/
def underWay (es : List HubEffect) : List Attempt := es.foldl carry []

def isDelay : HubEffect → Bool
  | .retryAfter _ => true
  | _ => false

/-- How many delays effects set running. -/
def delays (es : List HubEffect) : Nat := es.countP isDelay

def isLinkDeed : HubEffect → Bool
  | .connect _ _ | .hangUp _ | .retryAfter _ => true
  | _ => false

/-- What effects do about the connection, in order. -/
def linkDeeds (es : List HubEffect) : List HubEffect := es.filter isLinkDeed

@[simp] theorem linkDeeds_append (es fs : List HubEffect) :
    linkDeeds (es ++ fs) = linkDeeds es ++ linkDeeds fs := List.filter_append ..

@[simp] theorem linkDeeds_map_deliver (ls : List Letter) : linkDeeds (ls.map .deliver) = [] := by
  induction ls with
  | nil => rfl
  | cons l ls ih => exact ih

/-- The attempts under way hang on nothing else that effects do. -/
theorem foldl_carry_linkDeeds (es : List HubEffect) (up : List Attempt) :
    (linkDeeds es).foldl carry up = es.foldl carry up := by
  induction es generalizing up with
  | nil => rfl
  | cons e es ih => cases e <;> exact ih _

@[simp] theorem delays_append (es fs : List HubEffect) :
    delays (es ++ fs) = delays es + delays fs := List.countP_append

theorem delays_linkDeeds (es : List HubEffect) : delays (linkDeeds es) = delays es := by
  unfold delays linkDeeds
  rw [List.countP_filter]
  apply List.countP_congr
  intro e _
  cases e <;> simp [isDelay, isLinkDeed]

theorem connects_linkDeeds (es : List HubEffect) : connects (linkDeeds es) = connects es := by
  unfold connects linkDeeds
  rw [List.filterMap_filter]
  apply List.filterMap_congr
  intro e _
  cases e <;> rfl

end HubEffect

open HubEffect

namespace Hub

/-! ## Where a hub stands -/

/-- How a hub stands with the server. -/
inductive Standing where
  /-- It hangs on an attempt, or on the connection that the attempt made. -/
  | linked (a : Attempt)
  /-- It waits for a delay to run out. -/
  | waiting
  /-- The stream is dead. -/
  | dead
  deriving DecidableEq

def Standing.attempt? : Standing → Option Attempt
  | linked a => some a
  | _ => none

/-- The link, the delay and the dialer all say that a hub stands so. -/
def Stands (h : Hub) : Standing → Prop
  | .linked a => h.retryPending = false ∧
      (h.link = some ⟨a, false⟩ ∧ h.dialer.phase = .connecting a ∨
        h.link = some ⟨a, true⟩ ∧ h.dialer.phase = .connected a)
  | .waiting => h.retryPending = true ∧ h.link = none ∧ h.dialer.phase = .idle
  | .dead => h.retryPending = false ∧ h.link = none ∧ h.dialer.phase = .dead

variable {h : Hub} {s s' : Standing} {i : HubInput}

theorem Stands.link_attempt (hs : h.Stands s) : h.link.map (·.attempt) = s.attempt? := by
  cases s with
  | linked a =>
    obtain ⟨-, ⟨hl, -⟩ | ⟨hl, -⟩⟩ := hs <;> rw [hl] <;> rfl
  | waiting => rw [hs.2.1]; rfl
  | dead => rw [hs.2.1]; rfl

theorem Stands.retryPending (hs : h.Stands s) : h.retryPending = decide (s = .waiting) := by
  cases s <;> exact hs.1

theorem Stands.attempt? (hs : h.Stands s) : h.dialer.phase.attempt? = s.attempt? := by
  cases s with
  | linked a => obtain ⟨-, ⟨-, hp⟩ | ⟨-, hp⟩⟩ := hs <;> rw [hp] <;> rfl
  | waiting => rw [hs.2.2]; rfl
  | dead => rw [hs.2.2]; rfl

/-- Only a hub that hangs on an attempt listens to it. -/
theorem Stands.eq_linked {a : Attempt} (hs : h.Stands s)
    (ha : h.link.map (·.attempt) = some a) : s = .linked a := by
  have hattempt := hs.link_attempt.symm.trans ha
  cases s with
  | linked b => exact congrArg _ (Option.some.inj hattempt)
  | waiting => simp [Standing.attempt?] at hattempt
  | dead => simp [Standing.attempt?] at hattempt

/-- A hub stands in one way at a time. -/
theorem Stands.unique (hs : h.Stands s) (hs' : h.Stands s') : s = s' := by
  have hattempt := hs.link_attempt.symm.trans hs'.link_attempt
  have hpending := hs.retryPending.symm.trans hs'.retryPending
  cases s <;> cases s' <;> simp_all [Standing.attempt?]

/-- What becomes of a standing by an input, and what is done about the connection. The
attempt in progress ends and the next one takes its place at once or after a delay, or the
stream is dead; a delay runs out; or nothing changes, but for how far the attempt is. -/
inductive Move : Standing → HubInput → Standing → List HubEffect → Prop where
  | stays (s : Standing) {i : HubInput} (h : i = .retryDue → s ≠ .waiting) : Move s i s []
  | dialed (b : Attempt) (after : Option ChangeId) :
    Move .waiting .retryDue (.linked b) [.connect b after]
  | redialed (a b : Attempt) (f : Failure) (after : Option ChangeId) :
    Move (.linked a) (.link a (.ended f)) (.linked b) [.hangUp a, .connect b after]
  | delayed (a : Attempt) (f : Failure) (delay : Nat) :
    Move (.linked a) (.link a (.ended f)) .waiting [.hangUp a, .retryAfter delay]
  | stopped (a : Attempt) (f : Failure) : Move (.linked a) (.link a (.ended f)) .dead [.hangUp a]

/-! ## The parts of a step -/

theorem publish_linkDeeds (h : Hub) : linkDeeds h.publish.2 = [] := by
  unfold publish
  dsimp only
  split
  · rfl
  · exact linkDeeds_map_deliver _

theorem attach_linkDeeds (h : Hub) (tab : TabId) (scope : Option PuzzleId) (inbox : Inbox) :
    linkDeeds (h.attach tab scope inbox).2 = [] := by
  unfold attach
  rw [linkDeeds_append, List.append_eq_nil_iff]
  constructor
  · refine List.filter_eq_nil_iff.2 fun e he => ?_
    obtain ⟨m, -, rfl⟩ := List.mem_map.1 he
    simp [isLinkDeed]
  · split <;> rfl

/-- An outcome that has nothing to do with the connection. -/
structure Beside (h : Hub) (o : Outcome) : Prop where
  link : o.1.link = h.link
  dialer : o.1.dialer = h.dialer
  retryPending : o.1.retryPending = h.retryPending
  published : o.1.published = h.published
  deeds : linkDeeds o.2 = []

theorem beside_refl (h : Hub) : h.Beside (h, []) := ⟨rfl, rfl, rfl, rfl, rfl⟩

theorem flush_beside (h : Hub) (pick : Activity → Activity × Option ActivitySummary) :
    h.Beside (h.flush pick) := by
  unfold flush
  split
  · dsimp only
    cases (pick h.activity).2 <;> exact ⟨rfl, rfl, rfl, rfl, rfl⟩
  · exact h.beside_refl

theorem fromTab_beside (h : Hub) (m : TabMessage) (inbox : Option Inbox) :
    h.Beside (h.fromTab m inbox) := by
  cases m with
  | start tab scope =>
    cases inbox with
    | none => exact h.beside_refl
    | some inbox => exact ⟨rfl, rfl, rfl, rfl, h.attach_linkDeeds tab scope inbox⟩
  | activity tab subject active =>
    simp only [fromTab]
    split
    · exact ⟨rfl, rfl, rfl, rfl, rfl⟩
    · exact h.beside_refl

theorem tabGone_beside (h : Hub) (tab : TabId) : h.Beside (h.tabGone tab) := by
  unfold tabGone
  split
  · exact ⟨rfl, rfl, rfl, rfl, rfl⟩
  · exact h.beside_refl

theorem fromStream_beside (h : Hub) (m : LiveMessage) : h.Beside (h.fromStream m) := by
  cases m <;> exact ⟨rfl, rfl, rfl, rfl, linkDeeds_map_deliver _⟩

/-- What an input comes to, as far as the connection goes. Only the attempt that the hub hangs
on, and the delay that runs out, have to do with it. -/
inductive StepCase (h : Hub) : HubInput → Prop where
  | beside {i : HubInput} (hi : i ≠ .retryDue) (hb : h.Beside (h.step i)) : StepCase h i
  | opened (a : Attempt) (ha : h.link.map (·.attempt) = some a)
      (hstep : h.step (.link a .opened) = h.opened a) : StepCase h (.link a .opened)
  | ended (a : Attempt) (f : Failure) (ha : h.link.map (·.attempt) = some a)
      (hstep : h.step (.link a (.ended f)) = h.ended a f) : StepCase h (.link a (.ended f))
  | retryDue : StepCase h .retryDue

theorem step_cases (h : Hub) (i : HubInput) : h.StepCase i := by
  cases i with
  | fromTab m inbox => exact .beside (by simp) (h.fromTab_beside m inbox)
  | tabGone tab => exact .beside (by simp) (h.tabGone_beside tab)
  | link a e =>
    by_cases ha : h.link.map (·.attempt) = some a
    · cases e with
      | opened => exact .opened a ha (if_pos ha)
      | message m =>
        have hstep : h.step (.link a (.message m)) = h.fromStream m := if_pos ha
        exact .beside (by simp) (hstep ▸ h.fromStream_beside m)
      | ended f => exact .ended a f ha (if_pos ha)
    · have hstep : h.step (.link a e) = (h, []) := if_neg ha
      exact .beside (by simp) (hstep ▸ h.beside_refl)
  | retryDue => exact .retryDue
  | flushDue => exact .beside (by simp) (h.flush_beside Activity.news)

/-- Without a link, a hub that is not dead starts its next attempt. -/
theorem dial_of_alive (hl : h.link = none) (hd : h.dialer.phase ≠ .dead) :
    h.dial = ({ h with
        dialer := { h.dialer with
          phase := .connecting h.dialer.nextAttempt, nextAttempt := h.dialer.nextAttempt + 1 }
        link := some ⟨h.dialer.nextAttempt, false⟩ },
      [.connect h.dialer.nextAttempt h.recent.last?]) := by
  have halive : ¬ h.dialer.isDead := by rwa [Dialer.isDead_iff]
  simp [dial, dropLink, Outcome.andThen, Dialer.begin_of_alive halive, hl]

theorem dial_of_dead (hl : h.link = none) (hd : h.dialer.phase = .dead) : h.dial = (h, []) := by
  have hbegin := Dialer.begin_of_dead (Dialer.isDead_iff.2 hd)
  cases h
  simp_all [dial, dropLink, Outcome.andThen]

/-- A standing is kept by whatever touches none of its three witnesses. -/
theorem Stands.congr {g : Hub} (hs : h.Stands s) (hr : g.retryPending = h.retryPending)
    (hl : g.link = h.link) (hd : g.dialer = h.dialer) : g.Stands s := by
  cases s <;> simpa only [Stands, hr, hl, hd] using hs

/-- An input that leaves a hub standing as it does, and does nothing about the connection. -/
theorem Stands.stays {o : Outcome} (ho : o.1.Stands s) (hi : i = .retryDue → s ≠ .waiting)
    (hd : linkDeeds o.2 = []) :
    ∃ s', Move s i s' (linkDeeds o.2) ∧ o.1.Stands s' := by
  rw [hd]
  exact ⟨s, .stays s hi, ho⟩

/-- The attempt in progress gets its connection; one that has it is not asked twice. -/
theorem opened_move {a : Attempt} (hs : h.Stands (.linked a)) :
    (h.opened a).1.Stands (.linked a) ∧ linkDeeds (h.opened a).2 = [] := by
  obtain ⟨hr, ⟨hl, hp⟩ | ⟨hl, hp⟩⟩ := hs
  · unfold opened
    rw [Dialer.opened_of_connecting hp]
    dsimp only
    rw [andThen_fst, andThen_snd, linkDeeds_append, publish_linkDeeds, (flush_beside _ _).deeds]
    refine ⟨⟨?_, .inr ⟨?_, ?_⟩⟩, rfl⟩
    · rw [(flush_beside _ _).retryPending, (publish_frame _).1, hr]
    · rw [(flush_beside _ _).link, (publish_frame _).1]
    · rw [(flush_beside _ _).dialer, (publish_frame _).1]
  · have hnot : h.dialer.phase ≠ .connecting a := by simp [hp]
    unfold opened
    rw [Dialer.opened_of_not_connecting hnot]
    exact ⟨⟨hr, .inr ⟨hl, hp⟩⟩, rfl⟩

/-- A hub whose attempt ended lets go of it, tells the tabs, and then sees to the retry. -/
theorem ended_eq {a : Attempt} {f : Failure} {d : Dialer} {next : Retry}
    (ha : h.link.map (·.attempt) = some a) (hf : h.dialer.failed a f = (d, some next)) :
    let g : Hub := { h with dialer := d, link := none, published := d.linkState }
    (h.ended a f).1 = (g.retry next).1 ∧
    linkDeeds (h.ended a f).2 = .hangUp a :: linkDeeds (g.retry next).2 := by
  intro g
  have hdrop : dropLink { h with dialer := d } = ({ h with dialer := d, link := none },
      [.hangUp a]) := by
    obtain ⟨l, hl, rfl⟩ := Option.map_eq_some_iff.1 ha
    simp [dropLink, hl]
  have hpublish : (publish { h with dialer := d, link := none }).1 = g := (publish_frame _).1
  unfold ended
  rw [hf]
  dsimp only
  simp only [andThen_fst, andThen_snd, hdrop, hpublish, linkDeeds_append, publish_linkDeeds]
  exact ⟨trivial, rfl⟩

/-- When the attempt in progress ends, the next one takes its place at once or after a
delay, or the stream is dead. -/
theorem ended_move {a : Attempt} (hs : h.Stands (.linked a)) (f : Failure) :
    ∃ s', Move (.linked a) (.link a (.ended f)) s' (linkDeeds (h.ended a f).2) ∧
      (h.ended a f).1.Stands s' := by
  obtain ⟨d, next, hf⟩ := Dialer.failed_of_current hs.attempt? f
  obtain ⟨hhub, hdeeds⟩ := ended_eq hs.link_attempt hf
  rw [hhub, hdeeds]
  rcases Dialer.failed_cases hf with ⟨hp, rfl⟩ | ⟨hp, rfl⟩ | ⟨hp, delay, rfl⟩
  · exact ⟨.dead, .stopped a f, hs.1, rfl, hp⟩
  · have halive : d.phase ≠ .dead := by simp [hp]
    simp only [retry]
    rw [dial_of_alive rfl halive]
    exact ⟨.linked d.nextAttempt, .redialed .., hs.1, .inl ⟨rfl, rfl⟩⟩
  · exact ⟨.waiting, .delayed a f delay, rfl, rfl, hp⟩

/-- A delay that runs out counts only if the hub waits for it. -/
theorem retryDue_move (hs : h.Stands s) :
    ∃ s', Move s .retryDue s' (linkDeeds h.retryDue.2) ∧ h.retryDue.1.Stands s' := by
  let g : Hub := { h with retryPending := false }
  cases s with
  | linked a =>
    have hkept : h.retryDue = (g, []) := by
      obtain ⟨-, ⟨hl, -⟩ | ⟨hl, -⟩⟩ := hs <;> simp [retryDue, hl, g]
    rw [hkept]
    exact (hs.congr (g := g) hs.1.symm rfl rfl).stays (by simp) rfl
  | waiting =>
    obtain ⟨-, hl, hp⟩ := hs
    have hdials : h.retryDue = g.dial := by simp [retryDue, hl, g]
    rw [hdials, dial_of_alive (h := g) hl (by simp [g, hp])]
    exact ⟨.linked h.dialer.nextAttempt, .dialed .., rfl, .inl ⟨rfl, rfl⟩⟩
  | dead =>
    obtain ⟨-, hl, hp⟩ := hs
    have hkept : h.retryDue = (g, []) := by
      rw [← dial_of_dead (h := g) hl hp]
      simp [retryDue, hl, g]
    rw [hkept]
    exact Stands.stays (s := .dead) ⟨rfl, hl, hp⟩ (by simp) rfl

/-! ## One input -/

/-- Whatever comes in, a hub moves from one standing to another in one of these ways. -/
theorem step_move (hs : h.Stands s) (i : HubInput) :
    ∃ s', Move s i s' (linkDeeds (h.step i).2) ∧ (h.step i).1.Stands s' := by
  cases h.step_cases i with
  | beside hi hb =>
    exact (hs.congr hb.retryPending hb.link hb.dialer).stays (fun hdue => absurd hdue hi) hb.deeds
  | opened a ha hstep =>
    obtain rfl := hs.eq_linked ha
    rw [hstep]
    obtain ⟨hstands, hdeeds⟩ := opened_move hs
    exact hstands.stays (by simp) hdeeds
  | ended a f ha hstep =>
    obtain rfl := hs.eq_linked ha
    rw [hstep]
    exact ended_move hs f
  | retryDue => exact retryDue_move hs

/-- The attempts under way after a move are those of the new standing. -/
theorem Move.underWay {ds : List HubEffect} (hm : Move s i s' ds) :
    ds.foldl carry s.attempt?.toList = s'.attempt?.toList := by
  cases hm with
  | stays => rfl
  | dialed => rfl
  | redialed => simp [carry, Standing.attempt?]
  | delayed => simp [carry, Standing.attempt?]
  | stopped => simp [carry, Standing.attempt?]

/-- A delay that nobody waits for does nothing. -/
theorem Move.eq_nil_of_stray {ds : List HubEffect} (hm : Move s .retryDue s' ds)
    (hs : s ≠ .waiting) : ds = [] := by
  cases hm with
  | stays => rfl
  | dialed => exact absurd rfl hs

/-- Of the delays set running, those that did not run out yet are the one waited for. -/
theorem Move.delays {ds : List HubEffect} (hm : Move s i s' ds)
    (hi : i = .retryDue → s = .waiting) :
    delays ds + (decide (s = .waiting)).toNat =
      (decide (i = .retryDue)).toNat + (decide (s' = .waiting)).toNat := by
  cases hm with
  | stays _ h =>
    have hother : i ≠ .retryDue := fun heq => h heq (hi heq)
    simp [hother, HubEffect.delays]
  | dialed => rfl
  | redialed => rfl
  | delayed => rfl
  | stopped => rfl

/-! ## Many inputs -/

/-- Once the stream is dead, nothing connects any more. -/
theorem Stands.run_dead (hs : h.Stands .dead) (is : List HubInput) :
    (h.run is).1.Stands .dead ∧ connects (h.run is).2 = [] := by
  induction is generalizing h with
  | nil => exact ⟨hs, rfl⟩
  | cons i is ih =>
    obtain ⟨s', hm, hs'⟩ := step_move hs i
    obtain ⟨rfl, hquiet⟩ : s' = .dead ∧ linkDeeds (h.step i).2 = [] := by
      generalize linkDeeds (h.step i).2 = ds at hm
      cases hm
      exact ⟨rfl, rfl⟩
    obtain ⟨hdead, hconnects⟩ := ih hs'
    refine ⟨hdead, ?_⟩
    rw [run_cons, andThen_snd, connects_append, ← connects_linkDeeds, hquiet]
    exact hconnects

/-- Only delays that were set running run out. -/
def DelaysKeepWord (c : HubConfig) (is : List HubInput) : Prop :=
  ∀ past, past <+: is → past.count .retryDue ≤ delays (life c past).2

/-- How a hub stands, and that its effects add up to that. -/
structure Accounted (c : HubConfig) (is : List HubInput) (s : Standing) : Prop where
  stands : (life c is).1.Stands s
  underWay : underWay (life c is).2 = s.attempt?.toList
  delays : DelaysKeepWord c is →
    delays (life c is).2 = is.count .retryDue + (decide (s = .waiting)).toNat

variable {c : HubConfig} {is : List HubInput}

theorem accounted_start (c : HubConfig) : Accounted c [] (.linked 1) where
  stands := ⟨rfl, .inl ⟨rfl, rfl⟩⟩
  underWay := rfl
  delays _ := rfl

theorem Accounted.step (ha : Accounted c is s) (i : HubInput) :
    ∃ s', Accounted c (is ++ [i]) s' := by
  obtain ⟨s', hm, hs'⟩ := step_move ha.stands i
  refine ⟨s', ?_, ?_, fun hword => ?_⟩
  · rwa [life_snoc, andThen_fst]
  · rw [life_snoc, andThen_snd, HubEffect.underWay, List.foldl_append, ← foldl_carry_linkDeeds]
    exact (congrArg (List.foldl carry · _) ha.underWay).trans hm.underWay
  · have hbefore := ha.delays fun past hp => hword past (hp.trans (List.prefix_append ..))
    have hnow := hword _ List.prefix_rfl
    have hone : [i].count .retryDue = (decide (i = .retryDue)).toNat := by
      by_cases hi : i = .retryDue <;> simp [hi]
    rw [life_snoc, andThen_snd, delays_append, ← delays_linkDeeds ((life c is).1.step i).2,
      hbefore, List.count_append, hone] at hnow ⊢
    -- A delay that nobody waits for would be one more than were set running.
    have hawaited : i = .retryDue → s = .waiting := by
      rintro rfl
      refine Decidable.byContradiction fun hs => ?_
      rw [hm.eq_nil_of_stray hs] at hnow
      have hnone : HubEffect.delays [] = 0 := rfl
      simp only [hs, hnone, decide_true, decide_false, Bool.toNat_true, Bool.toNat_false] at hnow
      omega
    have hdelays := hm.delays hawaited
    omega

theorem accounted (c : HubConfig) (is : List HubInput) : ∃ s, Accounted c is s := by
  induction is using List.reverseRecOn with
  | nil => exact ⟨.linked 1, accounted_start c⟩
  | append_singleton is i ih =>
    obtain ⟨s, ha⟩ := ih
    exact ha.step i

/-! ## The law -/

/-- A hub hangs on one attempt, waits for one delay, or has given up, and on one of these
only. What it started and did not let go of is the attempt that it hangs on; of the delays
that it set running, the one that it waits for, if it waits, is still to run out. Once it
has given up, it never connects again. -/
theorem one_attempt_or_one_delay_or_the_end (c : HubConfig) (is : List HubInput) :
    let o := life c is
    (∃! s, o.1.Stands s) ∧
    underWay o.2 = (o.1.link.map (·.attempt)).toList ∧
    (DelaysKeepWord c is → delays o.2 = is.count .retryDue + o.1.retryPending.toNat) ∧
    (o.1.Stands .dead →
      ∀ more, (o.1.run more).1.Stands .dead ∧ connects (o.1.run more).2 = []) := by
  obtain ⟨s, ha⟩ := accounted c is
  refine ⟨⟨s, ha.stands, fun s' hs' => hs'.unique ha.stands⟩, ?_, fun hword => ?_,
    fun hdead => hdead.run_dead⟩
  · rw [ha.underWay, ha.stands.link_attempt]
  · rw [ha.delays hword, ha.stands.retryPending]

/-- The first connection fails, and its end is told twice; the second attempt takes too
long; the third is told that its events are gone. -/
def bumpyRoad : List HubInput :=
  [.link 1 .opened, .link 1 (.ended (.error "reset")), .link 1 (.ended (.error "reset")),
    .retryDue, .link 2 (.ended .timedOut), .link 3 (.ended (.closed replayGoneCode ""))]

/-- One delay was set running and ran out, nothing is under way, and one more delay that
runs out, from wherever it comes, does not start a fourth attempt. -/
theorem the_third_attempt_is_the_last :
    let o := life {} bumpyRoad
    DelaysKeepWord {} bumpyRoad ∧ delays o.2 = 1 ∧ o.1.Stands .dead ∧ underWay o.2 = [] ∧
    connects (o.1.run [.retryDue]).2 = [] := by
  have hword : DelaysKeepWord {} bumpyRoad := fun past hp =>
    (by decide : ∀ past ∈ bumpyRoad.inits, past.count .retryDue ≤ delays (life {} past).2) past
      ((List.mem_inits ..).2 hp)
  have hdead : (life {} bumpyRoad).1.Stands .dead := ⟨by decide, by decide, by decide⟩
  obtain ⟨-, hup, hdelays, hend⟩ := one_attempt_or_one_delay_or_the_end {} bumpyRoad
  exact ⟨hword, hdelays hword, hdead, hup.trans (by decide), (hend hdead _).2⟩

end Hub

end HuntBoard
