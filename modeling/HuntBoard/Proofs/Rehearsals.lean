-- A rehearsal is the life of a vigil: whatever the cues, the hub, the inputs that wait for it, the
-- leases and the watchers go through what a vigil can go through. So in a rehearsal, too, every
-- registered tab is watched once.
import HuntBoard.Rehearsal.Report
import HuntBoard.Proofs.Vigil
import Mathlib.Data.List.Basic

namespace HuntBoard

open HubEffect

/-! ## From one vigil to another -/

namespace Vigil

/-- One vigil can become another. -/
def Leads (v v' : Vigil) : Prop := ∃ ms : List Move, ms.foldl move v = v'

theorem Leads.refl (v : Vigil) : v.Leads v := ⟨[], rfl⟩

theorem Leads.trans {v v' v'' : Vigil} (h : v.Leads v') (h' : v'.Leads v'') : v.Leads v'' := by
  obtain ⟨ms, rfl⟩ := h
  obtain ⟨ms', rfl⟩ := h'
  exact ⟨ms ++ ms', List.foldl_append⟩

theorem leads_move (v : Vigil) (m : Move) : v.Leads (v.move m) := ⟨[m], rfl⟩

/-- Inputs may come for the hub at any time, if none is the end of a tab. -/
theorem leads_post (v : Vigil) {is : List HubInput} (his : ∀ i ∈ is, i.gone? = none) :
    v.Leads { v with queue := v.queue ++ is } := by
  induction is generalizing v with
  | nil =>
    rw [List.append_nil]
    exact .refl v
  | cons i is ih =>
    obtain ⟨hi, his⟩ := List.forall_mem_cons.1 his
    have hrest := ih (v.move (.post i hi)) his
    rw [move, List.append_assoc, List.singleton_append] at hrest
    exact (v.leads_move (.post i hi)).trans hrest

/-- All watchers whose wait is over tell the hub, in order. -/
theorem leads_reports (v : Vigil) (kept ws : List (TabId × Leases.Wait))
    (hwatches : v.watches = kept ++ ws) (hkept : ∀ w ∈ kept, v.leases.isOver w.2 = false) :
    v.Leads
      { v with
        queue := v.queue ++ (ws.filter fun w => v.leases.isOver w.2).map fun w => .tabGone w.1
        watches := kept ++ ws.filter fun w => !v.leases.isOver w.2 } := by
  induction ws generalizing v kept with
  | nil =>
    rw [List.filter_nil, List.filter_nil, List.map_nil, List.append_nil, ← hwatches]
    exact .refl v
  | cons w ws ih =>
    cases hover : v.leases.isOver w.2 with
    | false =>
      have hrest := ih v (kept ++ [w]) (by rw [hwatches, List.append_assoc, List.singleton_append])
        (by simpa [or_imp, forall_and, hover] using hkept)
      simpa [hover] using hrest
    | true =>
      have hfresh : w ∉ kept := fun hmem => by simp [hkept w hmem] at hover
      have hmem : w ∈ v.watches := by simp [hwatches]
      have hmove : v.move (.report w.1 w.2) =
          { v with queue := v.queue ++ [.tabGone w.1], watches := kept ++ ws } := by
        rw [move, report, if_pos ⟨hmem, hover⟩, hwatches, List.erase_append_right _ hfresh,
          List.erase_cons_head]
      have hrest := ih { v with queue := v.queue ++ [.tabGone w.1], watches := kept ++ ws } kept rfl hkept
      rw [← hmove] at hrest
      simpa [hover, hmove] using (v.leads_move (.report w.1 w.2)).trans hrest

end Vigil

/-! ## From one stage to another -/

namespace Rehearsal.Stage

/-- What a vigil knows of a stage, with the hub and what waits for it. -/
def vigil (s : Stage) (hub : Hub) (queue : List HubInput) : Vigil :=
  { hub, queue, leases := s.leases, watches := s.watches }

/-- One stage becomes another as a vigil can, unless the hub is shut down. -/
def Leads (s s' : Stage) : Prop :=
  ∀ h', s'.hub = some h' →
    ∃ h, s.hub = some h ∧ (s.vigil h s.queue).Leads (s'.vigil h' s'.queue)

/-- Inputs came for the hub, none of them the end of a tab, and watchers; all else that a vigil
knows is as it was. -/
structure Gains (s s' : Stage) (is : List HubInput) (ws : List (TabId × Leases.Wait)) : Prop where
  quiet : ∀ i ∈ is, i.gone? = none
  hub : s'.hub = s.hub
  queue : s'.queue = s.queue ++ is
  leases : s'.leases = s.leases
  watches : s'.watches = s.watches ++ ws

/-- A vigil knows of nothing that changed but inputs that came for the hub. -/
def Adds (s s' : Stage) : Prop := ∃ is, s.Gains s' is []

variable {s s' s'' : Stage}

theorem Leads.refl (s : Stage) : s.Leads s := fun h' hh' => ⟨h', hh', .refl _⟩

theorem Leads.trans (h : s.Leads s') (h' : s'.Leads s'') : s.Leads s'' := by
  intro hub'' hhub''
  obtain ⟨hub', hhub', hto''⟩ := h' hub'' hhub''
  obtain ⟨hub, hhub, hto'⟩ := h hub' hhub'
  exact ⟨hub, hhub, hto'.trans hto''⟩

theorem Leads.foldl {α : Type} {f : Stage → α → Stage} (hf : ∀ s a, Leads s (f s a)) (l : List α)
    (s : Stage) : s.Leads (l.foldl f s) :=
  List.foldlRecOn l f (motive := s.Leads) (.refl s) fun s' hs' a _ => hs'.trans (hf s' a)

theorem Gains.trans {is is' : List HubInput} {ws ws' : List (TabId × Leases.Wait)}
    (h : s.Gains s' is ws) (h' : s'.Gains s'' is' ws') : s.Gains s'' (is ++ is') (ws ++ ws') where
  quiet i hi := (List.mem_append.1 hi).elim (h.quiet i) (h'.quiet i)
  hub := h'.hub.trans h.hub
  queue := by rw [h'.queue, h.queue, List.append_assoc]
  leases := h'.leases.trans h.leases
  watches := by rw [h'.watches, h.watches, List.append_assoc]

/-- Nothing that a vigil knows of changed. -/
theorem Adds.of_same (hub : s'.hub = s.hub) (queue : s'.queue = s.queue)
    (leases : s'.leases = s.leases) (watches : s'.watches = s.watches) : s.Adds s' :=
  ⟨[], fun _ hi => absurd hi List.not_mem_nil, hub, by rw [queue, List.append_nil], leases,
    by rw [watches, List.append_nil]⟩

theorem Adds.refl (s : Stage) : s.Adds s := .of_same rfl rfl rfl rfl

theorem Adds.trans (h : s.Adds s') (h' : s'.Adds s'') : s.Adds s'' := by
  obtain ⟨is, h⟩ := h
  obtain ⟨is', h'⟩ := h'
  exact ⟨is ++ is', h.trans h'⟩

theorem Adds.foldl {α : Type} {f : Stage → α → Stage} (hf : ∀ s a, Adds s (f s a)) (l : List α)
    (s : Stage) : s.Adds (l.foldl f s) :=
  List.foldlRecOn l f (motive := s.Adds) (.refl s) fun s' hs' a _ => hs'.trans (hf s' a)

theorem Adds.leads (h : s.Adds s') : s.Leads s' := by
  obtain ⟨is, h⟩ := h
  intro hub hhub
  have hpost := (s.vigil hub s.queue).leads_post h.quiet
  refine ⟨hub, h.hub ▸ hhub, ?_⟩
  rwa [vigil.eq_1 s', h.queue, h.leases, h.watches, List.append_nil]

theorem Leads.of_same (hub : s'.hub = s.hub) (queue : s'.queue = s.queue)
    (leases : s'.leases = s.leases) (watches : s'.watches = s.watches) : s.Leads s' :=
  (Adds.of_same hub queue leases watches).leads

/-- A lease is taken. -/
theorem Leads.of_take {name : String} (hub : s'.hub = s.hub) (queue : s'.queue = s.queue)
    (leases : s'.leases = (s.leases.take name).1) (watches : s'.watches = s.watches) : s.Leads s' := by
  intro h hh
  have hmove := (s.vigil h s.queue).leads_move (.take name)
  refine ⟨h, hub ▸ hh, ?_⟩
  rwa [vigil.eq_1 s', queue, leases, watches]

/-- A lease is given back. -/
theorem Leads.of_release {n : LeaseNumber} (hub : s'.hub = s.hub) (queue : s'.queue = s.queue)
    (leases : s'.leases = s.leases.release n) (watches : s'.watches = s.watches) : s.Leads s' := by
  intro h hh
  have hmove := (s.vigil h s.queue).leads_move (.release n)
  refine ⟨h, hub ▸ hh, ?_⟩
  rwa [vigil.eq_1 s', queue, leases, watches]

/-! ## The hub's effects -/

theorem post_adds (s : Stage) {i : HubInput} (hi : i.gone? = none) : s.Adds (s.post i) := by
  unfold post
  split
  · exact ⟨[i], List.forall_mem_singleton.2 hi, rfl, rfl, rfl, (List.append_nil _).symm⟩
  · exact .refl s

theorem receive_adds (s : Stage) (a : Attempt) (r : Reception) : s.Adds (s.receive a r) := by
  cases r with
  | accept =>
    refine Adds.trans ?_ (post_adds _ rfl)
    exact .of_same rfl rfl rfl rfl
  | refuse => exact s.post_adds rfl
  | silence => exact .of_same rfl rfl rfl rfl

theorem hubTakes_of_none (hs : s.hub = none) (i : HubInput) : s.hubTakes i = s := by
  rw [hubTakes, hs]

/-- What is done for the hub starts the watchers that it wants, and may bring inputs. -/
theorem perform_gains (s : Stage) (e : HubEffect) :
    ∃ is, s.Gains (s.perform e) is ((watched [e]).map fun tab => (tab, s.leases.waitFor tab.text)) := by
  cases e with
  | watch tab => exact ⟨[], fun _ hi => absurd hi List.not_mem_nil, rfl, (List.append_nil _).symm, rfl, rfl⟩
  | deliver l =>
    change s.Adds (s.perform (.deliver l))
    unfold perform
    dsimp only
    split
    · exact .of_same rfl rfl rfl rfl
    · exact .refl s
  | connect a after =>
    change s.Adds (s.perform (.connect a after))
    refine Adds.trans ?_ (receive_adds _ a _)
    exact .of_same rfl rfl rfl rfl
  | hangUp a => exact (Adds.of_same rfl rfl rfl rfl : s.Adds (s.hangUp a))
  | retryAfter delay => exact (Adds.of_same rfl rfl rfl rfl : s.Adds (s.perform (.retryAfter delay)))
  | send a summary =>
    change s.Adds (s.perform (.send a summary))
    unfold perform
    dsimp only
    split
    · exact .of_same rfl rfl rfl rfl
    · exact .refl s

theorem foldl_perform_gains (s : Stage) (es : List HubEffect) :
    ∃ is, s.Gains (es.foldl perform s) is
      ((watched es).map fun tab => (tab, s.leases.waitFor tab.text)) := by
  induction es generalizing s with
  | nil => exact Adds.refl s
  | cons e es ih =>
    obtain ⟨is, h⟩ := s.perform_gains e
    obtain ⟨is', h'⟩ := ih (s.perform e)
    have hall := h.trans h'
    rw [h.leases, ← List.map_append, ← watched_append, List.singleton_append] at hall
    exact ⟨is ++ is', hall⟩

/-- The hub takes an input as that of a vigil does, and what comes of it waits behind all else. -/
theorem hubTakes_leads {h : Hub} (hs : s.hub = some h) (i : HubInput) (rest : List HubInput) :
    (s.hubTakes i).hub = some (h.step i).1 ∧
      ((s.vigil h (rest ++ s.queue)).hubTakes i).Leads
        ((s.hubTakes i).vigil (h.step i).1 (rest ++ (s.hubTakes i).queue)) := by
  have htakes : s.hubTakes i = (h.step i).2.foldl perform { s with hub := some (h.step i).1 } := by
    rw [hubTakes, hs]
    rfl
  obtain ⟨is, hgains⟩ := foldl_perform_gains { s with hub := some (h.step i).1 } (h.step i).2
  rw [← htakes] at hgains
  have hpost := ((s.vigil h (rest ++ s.queue)).hubTakes i).leads_post hgains.quiet
  have hvigil : (s.hubTakes i).vigil (h.step i).1 (rest ++ (s.hubTakes i).queue) =
      { (s.vigil h (rest ++ s.queue)).hubTakes i with queue := rest ++ s.queue ++ is } := by
    rw [vigil, hgains.queue, hgains.leases, hgains.watches, Vigil.hubTakes_eq, List.append_assoc]
    rfl
  refine ⟨hgains.hub, ?_⟩
  rw [Vigil.hubTakes_eq] at hpost hvigil ⊢
  rwa [hvigil]

/-- The hub may look for news of activity at any time. -/
theorem flush_leads (s : Stage) : s.Leads (s.hubTakes .flushDue) := by
  cases hs : s.hub with
  | none =>
    rw [hubTakes_of_none hs]
    exact .refl s
  | some h =>
    obtain ⟨hhub, htakes⟩ := hubTakes_leads hs .flushDue []
    intro h' hh'
    obtain rfl := Option.some.inj (hhub.symm.trans hh')
    exact ⟨h, hs, ((s.vigil h s.queue).leads_move .flush).trans htakes⟩

/-- The hub takes inputs in order, and what comes of them waits behind those that are left. -/
theorem foldl_hubTakes_leads {h : Hub} (hs : s.hub = some h) (q : List HubInput) :
    ∃ h', (q.foldl hubTakes s).hub = some h' ∧
      (s.vigil h (q ++ s.queue)).Leads
        ((q.foldl hubTakes s).vigil h' (q.foldl hubTakes s).queue) := by
  induction q generalizing s h with
  | nil => exact ⟨h, hs, .refl _⟩
  | cons i q ih =>
    obtain ⟨hhub, htakes⟩ := hubTakes_leads hs i q
    obtain ⟨h', hh', hrest⟩ := ih hhub
    have hhandle := (s.vigil h (i :: q ++ s.queue)).leads_move .handle
    exact ⟨h', hh', (hhandle.trans htakes).trans hrest⟩

theorem drainQueue_leads (s : Stage) : s.Leads s.drainQueue := by
  cases hs : s.hub with
  | none =>
    have hidle : s.drainQueue = { s with queue := [] } :=
      List.foldl_fixed' (hubTakes_of_none (s := { s with queue := [] }) hs) s.queue
    intro h' hh'
    rw [hidle] at hh'
    exact absurd (hs.symm.trans hh') nofun
  | some h =>
    obtain ⟨h', hh', hleads⟩ := foldl_hubTakes_leads (s := { s with queue := [] }) hs s.queue
    intro h'' hh''
    obtain rfl := Option.some.inj (hh'.symm.trans hh'')
    rw [List.append_nil] at hleads
    exact ⟨h, hs, hleads⟩

/-! ## Settling -/

theorem post_of_none (hs : s.hub = none) (i : HubInput) : s.post i = s := by
  rw [post, if_neg (by rw [hs]; decide)]

/-- What is posted waits for the hub, in order. -/
theorem foldl_post {h : Hub} (hs : s.hub = some h) (is : List HubInput) :
    is.foldl post s = { s with queue := s.queue ++ is } := by
  induction is generalizing s with
  | nil => rw [List.foldl_nil, List.append_nil]
  | cons i is ih =>
    have hpost : s.post i = { s with queue := s.queue ++ [i] } := by
      rw [post, if_pos (by rw [hs]; rfl)]
    rw [List.foldl_cons, hpost, ih (s := { s with queue := s.queue ++ [i] }) hs, List.append_assoc,
      List.singleton_append]

theorem reportEnds_eq (s : Stage) :
    s.reportEnds =
      ((s.watches.filter fun w => s.leases.isOver w.2).map fun w => HubInput.tabGone w.1).foldl post
        { s with watches := s.watches.filter fun w => !s.leases.isOver w.2 } := by
  rw [reportEnds, List.partition_eq_filter_filter, List.foldl_map]
  rfl

theorem reportEnds_leads (s : Stage) : s.Leads s.reportEnds := by
  let waiting : Stage := { s with watches := s.watches.filter fun w => !s.leases.isOver w.2 }
  cases hs : s.hub with
  | none =>
    rw [reportEnds_eq, List.foldl_fixed' (post_of_none (s := waiting) hs)]
    exact fun h' hh' => absurd (hs.symm.trans hh') nofun
  | some h =>
    rw [reportEnds_eq, foldl_post (s := waiting) hs]
    intro h' hh'
    obtain rfl := Option.some.inj (hs.symm.trans hh')
    exact ⟨h, hs, (s.vigil h s.queue).leads_reports [] s.watches rfl nofun⟩

theorem ringRetry_adds (s : Stage) : s.Adds s.ringRetry := by
  unfold ringRetry
  split
  · refine Adds.trans ?_ (post_adds _ rfl)
    exact .of_same rfl rfl rfl rfl
  · exact .refl s

theorem ringTimeout_adds (s : Stage) : s.Adds s.ringTimeout := by
  unfold ringTimeout
  split
  · split
    · refine Adds.trans ?_ (post_adds _ rfl)
      exact .of_same rfl rfl rfl rfl
    · exact .refl s
  · exact .refl s

theorem finishOpening_leads (s : Stage) (o : Opening) : s.Leads (s.finishOpening o) := by
  unfold finishOpening
  split
  · exact .of_same rfl rfl rfl rfl
  · exact .of_release rfl rfl rfl rfl

theorem finishOpenings_leads (s : Stage) : s.Leads s.finishOpenings := by
  unfold finishOpenings
  split
  · exact .refl s
  · refine Leads.trans ?_ (.foldl finishOpening_leads s.openings _)
    exact .of_same rfl rfl rfl rfl

theorem gather_leads (s : Stage) : s.Leads s.gather :=
  ((s.finishOpenings_leads.trans (ringRetry_adds _).leads).trans (ringTimeout_adds _).leads).trans
    (reportEnds_leads _)

theorem settleHub_leads (fuel : Nat) (s : Stage) : s.Leads (settleHub fuel s) := by
  induction fuel generalizing s with
  | zero => exact .refl s
  | succ fuel ih =>
    rw [settleHub]
    split
    · exact s.gather_leads
    · exact (s.gather_leads.trans (drainQueue_leads _)).trans (ih _)

theorem performFor_adds (id : TabId) (name : String) (s : Stage) (e : TabEffect) :
    s.Adds (performFor id name s e) := by
  cases e with
  | report subject active => exact s.post_adds rfl
  | tell e => exact .of_same rfl rfl rfl rfl
  | ask w => exact .of_same rfl rfl rfl rfl
  | answer r => exact .of_same rfl rfl rfl rfl

theorem read_adds (s : Stage) (g : Guest) : s.Adds (s.read g) := by
  unfold read
  split
  · refine Adds.trans ?_ (.foldl (performFor_adds g.id "") _ _)
    exact .of_same rfl rfl rfl rfl
  · exact .refl s

theorem settle_leads (s : Stage) : s.Leads s.settle :=
  (settleHub_leads _ s).trans (Adds.foldl read_adds _ _).leads

theorem flushUntil_leads (s : Stage) (time : Nat) : s.Leads (s.flushUntil time) := by
  unfold flushUntil
  split
  · have hclock : s.Leads { s with clock := s.flushAt } := .of_same rfl rfl rfl rfl
    refine ((hclock.trans (flush_leads _)).trans (settle_leads _)).trans ?_
    exact .of_same rfl rfl rfl rfl
  · exact .refl s

theorem moveTo_leads (time fuel : Nat) (s : Stage) : s.Leads (moveTo time fuel s) := by
  induction fuel generalizing s with
  | zero => exact .of_same rfl rfl rfl rfl
  | succ fuel ih =>
    rw [moveTo]
    split
    · next due _ =>
      have hclock : (s.flushUntil due).Leads { s.flushUntil due with clock := due } :=
        .of_same rfl rfl rfl rfl
      exact (((s.flushUntil_leads due).trans hclock).trans (settle_leads _)).trans (ih _)
    · refine (s.flushUntil_leads time).trans ?_
      exact .of_same rfl rfl rfl rfl

/-! ## Cues -/

theorem tabTakes_adds (s : Stage) (g : Guest) (name : String) (i : TabInput) :
    s.Adds (s.tabTakes g name i) := by
  unfold tabTakes
  dsimp only
  refine Adds.trans ?_ (.foldl (performFor_adds g.id name) _ _)
  exact .of_same rfl rfl rfl rfl

theorem endGuest_leads (s : Stage) (id : TabId) : s.Leads (s.endGuest id) := by
  unfold endGuest
  dsimp only
  refine Leads.trans ?_ (.foldl (fun s g => ?_) _ _)
  · exact .of_same rfl rfl rfl rfl
  · exact .of_release rfl rfl rfl rfl

theorem endUnused_leads (s : Stage) (id : TabId) : s.Leads (s.endUnused id) := by
  unfold endUnused
  split
  · exact s.endGuest_leads id
  · exact .refl s

theorem openTab_leads (s : Stage) (label : String) (scope : Option PuzzleId) :
    s.Leads (s.openTab label scope) := by
  unfold openTab
  dsimp only
  split
  · split
    · next leases lease htake =>
      refine Leads.trans ?_ (post_adds _ rfl).leads
      exact .of_take rfl rfl (congrArg Prod.fst htake).symm rfl
    · exact .of_same rfl rfl rfl rfl
  · exact .of_same rfl rfl rfl rfl

theorem dropTab_leads (s : Stage) (g : Guest) : s.Leads (s.dropTab g) := by
  refine Leads.trans ?_ (endUnused_leads _ _)
  exact .of_same rfl rfl rfl rfl

theorem write_adds (s : Stage) (g : Guest) (name : String) (request : WriteRequest)
    (optimistic : Bool) : s.Adds (s.write g name request optimistic) := by
  unfold write
  split
  · exact s.tabTakes_adds ..
  · exact .of_same rfl rfl rfl rfl

theorem respond_leads (s : Stage) (n : Nat) (v : Verdict) : s.Leads (s.respond n v) := by
  unfold respond
  split
  · split
    · dsimp only
      split
      · refine Leads.trans ?_ (endUnused_leads _ _)
        refine Adds.leads (Adds.trans ?_ (tabTakes_adds ..))
        exact .of_same rfl rfl rfl rfl
      · exact .of_same rfl rfl rfl rfl
    · exact .refl s
  · exact .refl s

theorem reply_adds (s : Stage) (r : Reply) : s.Adds (s.reply r) := .of_same rfl rfl rfl rfl

theorem onLine_adds {say : Stage → Attempt → Stage} (hsay : ∀ s a, Adds s (say s a)) (s : Stage) :
    s.Adds (s.onLine say) := by
  unfold onLine
  split
  · split
    · exact (hsay s _).trans (reply_adds _ _)
    · exact s.reply_adds _
  · exact .refl s

theorem pushOn_adds (messages : List LiveMessage) (s : Stage) (a : Attempt) :
    s.Adds (pushOn messages s a) := .foldl (fun s _ => s.post_adds rfl) messages s

theorem endLine_adds (f : Failure) (s : Stage) (a : Attempt) : s.Adds (endLine f s a) := by
  refine Adds.trans ?_ (post_adds _ rfl)
  exact .of_same rfl rfl rfl rfl

theorem dropFrames_adds (s : Stage) : s.Adds s.dropFrames := by
  unfold dropFrames
  split
  · split
    · exact endLine_adds ..
    · exact .refl s
  · exact .refl s

theorem postOver_adds (s : Stage) (m : TabMessage) (inbox : Option Inbox) :
    s.Adds (s.postOver m inbox) := by
  unfold postOver
  split
  · have hpost : s.Adds (s.post (.fromTab m inbox)) := s.post_adds rfl
    exact hpost.trans (reply_adds _ _)
  · exact s.reply_adds _

theorem send_adds (s : Stage) (p : HandPort) (m : TabMessage) : s.Adds (s.send p m) := by
  cases m with
  | start tab scope =>
    refine Adds.trans ?_ (postOver_adds ..)
    exact .of_same rfl rfl rfl rfl
  | activity tab subject active => exact s.postOver_adds ..

theorem hold_leads (s : Stage) (lease : String) : s.Leads (s.hold lease) := by
  unfold hold
  split
  · next leases n htake => exact .of_take rfl rfl (congrArg Prod.fst htake).symm rfl
  · exact .of_same rfl rfl rfl rfl

theorem release_leads (s : Stage) (lease : String) : s.Leads (s.release lease) := by
  unfold release
  split
  · exact .of_release rfl rfl rfl rfl
  · exact .refl s

theorem withTab_leads {act : Stage → Guest → Stage} (hact : ∀ s g, Leads s (act s g)) (s : Stage)
    (label : String) : s.Leads (s.withTab label act) := by
  unfold withTab
  split
  · exact hact s _
  · exact .refl s

/-- A cue, other than that the hub begins anew, leads to what a vigil can come to. -/
theorem follow_leads (s : Stage) {c : Cue} (hc : c ≠ .begin) : s.Leads (s.follow c) := by
  cases c with
  | begin => exact absurd rfl hc
  | openTab label scope => exact s.openTab_leads label scope
  | closeTab label => exact withTab_leads (fun s g => s.endGuest_leads g.id) s label
  | dropTab label => exact withTab_leads dropTab_leads s label
  | listenAnew label =>
    refine withTab_leads (fun s g => ?_) s label
    exact .of_same rfl rfl rfl rfl
  | activity label subject active =>
    refine withTab_leads (fun s g => ?_) s label
    split
    · exact (s.tabTakes_adds ..).leads
    · exact (s.reply_adds _).leads
  | write label name request optimistic =>
    exact withTab_leads (fun s g => (s.write_adds ..).leads) s label
  | respond call v => exact s.respond_leads call v
  | push messages => exact (onLine_adds (pushOn_adds messages) s).leads
  | hangUp f => exact (onLine_adds (endLine_adds f) s).leads
  | dropFrames => exact s.dropFrames_adds.leads
  | advance ms => exact s.settle_leads.trans (moveTo_leads _ _ _)
  | shutdown => exact fun _ h => nomatch h
  | send name m =>
    rw [follow]
    split
    · exact (s.send_adds _ m).leads
    · exact .refl s
  | hold lease => exact s.hold_leads lease
  | release lease => exact s.release_leads lease
  | home answer => exact .of_same rfl rfl rfl rfl
  | gate closed => exact .of_same rfl rfl rfl rfl
  | stopListening => exact .of_same rfl rfl rfl rfl
  | receptions l => exact .of_same rfl rfl rfl rfl
  | openPort name => exact .of_same rfl rfl rfl rfl
  | dropPort name => exact .of_same rfl rfl rfl rfl

theorem looked_adds (s : Stage) : s.Adds s.looked := by
  unfold looked
  dsimp only
  refine Adds.trans ?_ (.foldl (fun s p => ?_) _ _)
  · exact .of_same rfl rfl rfl rfl
  · exact .of_same rfl rfl rfl rfl

theorem act_leads (s : Stage) {c : Cue} (hc : c ≠ .begin) : s.Leads (s.act c).1 :=
  ((s.follow_leads hc).trans (settle_leads _)).trans (looked_adds _).leads

/-! ## Whole rehearsals -/

/-- The hub begins, and cues are followed, each with all that comes of it. -/
def play (s : Stage) (cues : List Cue) : Stage :=
  (Cue.begin :: cues).foldl (fun s c => (s.act c).1) s

/-- A stage where nothing has happened that a vigil would know of. -/
structure Fresh (s : Stage) : Prop where
  hub : s.hub = none
  queue : s.queue = []
  leases : s.leases = {}
  watches : s.watches = []

theorem Fresh.begin (hs : s.Fresh) :
    ∃ h, s.begin.hub = some h ∧ (Vigil.life s.config []).Leads (s.begin.vigil h s.begin.queue) := by
  have hwatched : watched (Hub.start s.config).2 = [] := (Hub.ofConfig s.config).dial_quiet.watched
  let started : Stage := { s with flushAt := s.config.flushInterval, hub := some (Hub.start s.config).1 }
  obtain ⟨is, hgains⟩ := started.foldl_perform_gains (Hub.start s.config).2
  have hbegin : s.begin = (Hub.start s.config).2.foldl perform started := rfl
  rw [← hbegin, hwatched, List.map_nil] at hgains
  refine ⟨_, hgains.hub, ?_⟩
  have hqueue : s.begin.queue = is := hgains.queue.trans (by rw [hs.queue, List.nil_append])
  have hleases : s.begin.leases = {} := hgains.leases.trans hs.leases
  have hwatches : s.begin.watches = [] := hgains.watches.trans (by rw [hs.watches, List.append_nil])
  have hpost := (Vigil.life s.config []).leads_post hgains.quiet
  rw [vigil, hqueue, hleases, hwatches]
  exact hpost

/-- A rehearsal in which the hub begins once is a life of its vigil. -/
theorem Fresh.play (hs : s.Fresh) {cues : List Cue} (hcues : ∀ c ∈ cues, c ≠ .begin) {h : Hub}
    (hh : (s.play cues).hub = some h) :
    ∃ ms, Vigil.life s.config ms = (s.play cues).vigil h (s.play cues).queue := by
  have hfollowed : (s.act .begin).1.Leads (s.play cues) :=
    List.foldlRecOn cues _ (motive := (s.act .begin).1.Leads) (.refl _) fun s' hs' c hc =>
      hs'.trans (s'.act_leads (hcues c hc))
  have hact : s.begin.Leads (s.act .begin).1 := (settle_leads _).trans (looked_adds _).leads
  obtain ⟨h₀, hh₀, hrest⟩ := hact.trans hfollowed h hh
  obtain ⟨h₁, hh₁, hbegun⟩ := hs.begin
  obtain rfl := Option.some.inj (hh₀.symm.trans hh₁)
  obtain ⟨ms, hms⟩ := hbegun.trans hrest
  exact ⟨ms, hms⟩

/-- In a rehearsal, too, a registered tab has one watcher or one report of its end on its way, a tab
that is not registered has neither, and only of registered tabs is activity known. -/
theorem Fresh.watched_once (hs : s.Fresh) {cues : List Cue} (hcues : ∀ c ∈ cues, c ≠ .begin)
    {h : Hub} (hh : (s.play cues).hub = some h) (tab : TabId) :
    (s.play cues).watches.countP (·.1 = tab) + (s.play cues).queue.count (.tabGone tab) =
        (if h.roster.contains tab then 1 else 0) ∧
      (h.activity.reports.contains tab → h.roster.contains tab) := by
  obtain ⟨ms, hms⟩ := hs.play hcues hh
  have hv := Vigil.life_sound s.config ms
  rw [hms] at hv
  exact ⟨hv.owed tab, hv.reports tab⟩

end Rehearsal.Stage

end HuntBoard
