-- The hub, the leases, and the watchers that tell the hub when the lease of a tab has ended. A
-- registered tab has exactly one watcher, or else its end is on its way to the hub; a tab that is
-- not registered has neither, and nothing is known of its activity.
import HuntBoard.Proofs.HubSteps
import HuntBoard.Proofs.Leases
import HuntBoard.Proofs.ReportSums
import Mathlib.Data.List.Induction

namespace HuntBoard

/-! ## Reading effects and inputs -/

namespace HubEffect

/-- The tab whose lease is to be watched. -/
def watch? : HubEffect → Option TabId
  | .watch tab => some tab
  | _ => none

/-- The tabs to watch among effects, in order. -/
def watched (es : List HubEffect) : List TabId := es.filterMap watch?

@[simp] theorem watched_append (es fs : List HubEffect) :
    watched (es ++ fs) = watched es ++ watched fs := List.filterMap_append

@[simp] theorem watched_map_deliver (ls : List Letter) : watched (ls.map .deliver) = [] := by
  induction ls with
  | nil => rfl
  | cons l ls ih => exact ih

end HubEffect

open HubEffect

/-- The tab whose end an input reports. -/
def HubInput.gone? : HubInput → Option TabId
  | .tabGone tab => some tab
  | _ => none

/-! ## One input -/

namespace Hub

/-- No tab is to be watched, and the reports of the tabs are as they were. -/
structure Quiet (h : Hub) (o : Outcome) : Prop where
  watched : watched o.2 = []
  reports : o.1.activity.reports = h.activity.reports

variable {h : Hub} {o : Outcome}

theorem Quiet.andThen {f : Hub → Outcome} (ho : h.Quiet o) (hf : o.1.Quiet (f o.1)) :
    h.Quiet (o.andThen f) :=
  ⟨by simp [ho.watched, hf.watched], by simp [ho.reports, hf.reports]⟩

variable (h)

theorem dropLink_quiet : h.Quiet h.dropLink := by
  unfold dropLink
  cases h.link <;> exact ⟨rfl, rfl⟩

theorem publish_quiet : h.Quiet h.publish := by
  unfold publish
  dsimp only
  split
  · exact ⟨rfl, rfl⟩
  · exact ⟨watched_map_deliver _, rfl⟩

theorem flush_quiet {pick : Activity → Activity × Option ActivitySummary}
    (hpick : ∀ a, (pick a).1.reports = a.reports) : h.Quiet (h.flush pick) := by
  unfold flush
  split
  · dsimp only
    refine ⟨?_, hpick h.activity⟩
    cases (pick h.activity).2 <;> rfl
  · exact ⟨rfl, rfl⟩

theorem dial_quiet : h.Quiet h.dial := by
  refine h.dropLink_quiet.andThen ?_
  split <;> exact ⟨rfl, rfl⟩

theorem retry_quiet (next : Retry) : h.Quiet (h.retry next) := by
  cases next with
  | now => exact h.dial_quiet
  | after delay => exact ⟨rfl, rfl⟩
  | never => exact ⟨rfl, rfl⟩

theorem onLink_quiet (a : Attempt) (e : LinkEvent) : h.Quiet (h.onLink a e) := by
  unfold onLink
  split
  · cases e with
    | opened =>
      dsimp only [opened]
      split
      · rename_i dialer _
        let h' : Hub := { h with dialer, link := some ⟨a, true⟩ }
        have hpublish : h.Quiet h'.publish := ⟨h'.publish_quiet.watched, h'.publish_quiet.reports⟩
        exact hpublish.andThen (flush_quiet _ Activity.all_reports)
      · exact ⟨rfl, rfl⟩
    | message m => cases m <;> exact ⟨watched_map_deliver _, rfl⟩
    | ended f =>
      dsimp only [ended]
      split
      · rename_i dialer next _
        let h' : Hub := { h with dialer }
        have hdrop : h.Quiet h'.dropLink := ⟨h'.dropLink_quiet.watched, h'.dropLink_quiet.reports⟩
        exact (hdrop.andThen (publish_quiet _)).andThen (retry_quiet _ next)
      · exact ⟨rfl, rfl⟩
  · exact ⟨rfl, rfl⟩

theorem retryDue_quiet : h.Quiet h.retryDue := by
  unfold retryDue
  split
  · exact ⟨(dial_quiet _).watched, (dial_quiet _).reports⟩
  · exact ⟨rfl, rfl⟩

/-- What an input does to the tabs: who is registered, who is to be watched, and whose activity
is known. -/
inductive TabMove (h : Hub) (i : HubInput) (o : Outcome) : Prop where
  /-- The same tabs are registered; only they may have something to report. -/
  | stayed (input : i.gone? = none) (roster : ∀ x, o.1.roster.contains x = h.roster.contains x)
      (watched : watched o.2 = [])
      (reports : ∀ x, o.1.activity.reports.contains x →
        h.activity.reports.contains x ∨ h.roster.contains x)
  /-- A tab is registered that was not. -/
  | joined (tab : TabId) (input : i.gone? = none) (before : h.roster.contains tab = false)
      (roster : ∀ x, o.1.roster.contains x = (decide (x = tab) || h.roster.contains x))
      (watched : watched o.2 = [tab]) (reports : o.1.activity = h.activity)
  /-- The end of a tab is reported; it is registered no longer, if it was. -/
  | left (tab : TabId) (input : i = .tabGone tab)
      (roster : ∀ x, o.1.roster.contains x = (decide (x ≠ tab) && h.roster.contains x))
      (watched : watched o.2 = [])
      (reports : ∀ x, o.1.activity.reports.contains x →
        h.activity.reports.contains x ∧ (x = tab → h.roster.contains tab = false))

variable {h} in
theorem Quiet.stayed {i : HubInput} {o : Outcome} (ho : h.Quiet o) (hi : i.gone? = none)
    (hroster : o.1.roster = h.roster) : TabMove h i o :=
  .stayed hi (fun x => by rw [hroster]) ho.watched fun x hx => .inl (by rwa [ho.reports] at hx)

end Hub

theorem Roster.contains_attach (r : Roster) (tab : TabId) (scope : Option PuzzleId) (inbox : Inbox)
    (x : TabId) : (r.attach tab scope inbox).1.contains x = (decide (x = tab) || r.contains x) := by
  by_cases hx : x = tab
  · subst hx
    simp [attach, contains, KeyedMap.contains]
  · simp [attach, contains, KeyedMap.contains, KeyedMap.get?_insert_ne, hx]

theorem Roster.contains_detach (r : Roster) (tab x : TabId) :
    (r.detach tab).1.contains x = (decide (x ≠ tab) && r.contains x) := by
  by_cases hx : x = tab
  · subst hx
    simp [detach, contains, KeyedMap.contains]
  · simp [detach, contains, KeyedMap.contains, KeyedMap.get?_erase_ne, hx]

namespace Hub

variable (h : Hub)

theorem attach_tabMove (tab : TabId) (scope : Option PuzzleId) (inbox : Inbox) :
    TabMove h (.fromTab (.start tab scope) (some inbox)) (h.attach tab scope inbox) := by
  have hroster := fun x => h.roster.contains_attach tab scope inbox x
  have hwelcome : watched (h.welcome.map fun m => .deliver ⟨inbox, m⟩) = [] :=
    List.filterMap_eq_nil_iff.2 fun e he => by
      obtain ⟨m, -, rfl⟩ := List.mem_map.1 he
      rfl
  cases hbefore : h.roster.contains tab with
  | false =>
    have hnew : (h.roster.attach tab scope inbox).2 = true := by
      simpa [Roster.attach, Roster.contains] using hbefore
    refine .joined tab rfl hbefore hroster ?_ rfl
    simp only [attach, hnew, watched_append, hwelcome]
    rfl
  | true =>
    have hold : (h.roster.attach tab scope inbox).2 = false := by
      simpa [Roster.attach, Roster.contains] using hbefore
    refine .stayed rfl (fun x => (hroster x).trans ?_) ?_ fun x hx => .inl hx
    · by_cases hx : x = tab
      · subst hx
        simp [hbefore]
      · simp [hx]
    · simp only [attach, hold, watched_append, hwelcome]
      rfl

theorem tabGone_tabMove (tab : TabId) : TabMove h (.tabGone tab) (h.tabGone tab) := by
  have hroster := fun x => h.roster.contains_detach tab x
  have hgone : (h.tabGone tab).1.roster = (h.roster.detach tab).1 := h.step_roster (.tabGone tab)
  refine .left tab rfl (fun x => by rw [hgone, hroster]) ?_ fun x hx => ?_
  · unfold tabGone
    split <;> rfl
  · unfold tabGone at hx
    cases hbefore : h.roster.contains tab with
    | false =>
      have hnone : (h.roster.detach tab).2 = false := hbefore
      split at hx
      · next hdetach => simp [hdetach] at hnone
      · exact ⟨hx, fun _ => rfl⟩
    | true =>
      have hsome : (h.roster.detach tab).2 = true := hbefore
      split at hx
      · have hne : x ≠ tab := by
          rintro rfl
          simp [Activity.forget, KeyedMap.contains] at hx
        refine ⟨?_, fun heq => absurd heq hne⟩
        simpa [Activity.forget, KeyedMap.contains, KeyedMap.get?_erase_ne _ hne] using hx
      · next hdetach => simp [hdetach] at hsome

theorem step_tabMove (i : HubInput) : TabMove h i (h.step i) := by
  have hroster := h.step_roster i
  cases i with
  | fromTab m inbox =>
    cases m with
    | start tab scope =>
      cases inbox with
      | none => exact Quiet.stayed ⟨rfl, rfl⟩ rfl rfl
      | some inbox => exact h.attach_tabMove tab scope inbox
    | activity tab subject active =>
      refine .stayed rfl (fun x => by rw [hroster]) ?_ fun x hx => ?_
      · simp only [step, fromTab]
        split <;> rfl
      · simp only [step, fromTab] at hx
        split at hx
        · next htab =>
          by_cases heq : x = tab
          · subst heq
            exact .inr htab
          · left
            simpa [Activity.report, KeyedMap.contains, KeyedMap.get?_insert_ne, heq] using hx
        · exact .inl hx
  | tabGone tab => exact h.tabGone_tabMove tab
  | link a e => exact (h.onLink_quiet a e).stayed rfl hroster
  | retryDue => exact h.retryDue_quiet.stayed rfl hroster
  | flushDue => exact (h.flush_quiet Activity.news_reports).stayed rfl hroster

end Hub

/-! ## The vigil -/

/-- A hub with the inputs that wait for it, the leases, and the watchers: for each the tab that it
watches for the hub, and what it waits for. -/
structure Vigil where
  hub : Hub
  queue : List HubInput := []
  leases : Leases := {}
  watches : List (TabId × Leases.Wait) := []

namespace Vigil

/-- What can happen next. -/
inductive Move where
  /-- Somebody takes the lease of a name, if it is free. -/
  | take (name : String)
  /-- Somebody gives a lease back. -/
  | release (n : LeaseNumber)
  /-- Something else than the end of a tab comes for the hub. -/
  | post (i : HubInput) (h : i.gone? = none)
  /-- A watcher whose wait is over tells the hub, and goes. -/
  | report (tab : TabId) (wait : Leases.Wait)
  /-- The hub takes the first of the inputs that wait for it. -/
  | handle
  /-- It is time for the hub to look for news of activity, whatever waits for it. -/
  | flush

/-- Do what the hub wants done. All but watchers is done elsewhere. -/
def perform (v : Vigil) : HubEffect → Vigil
  | .watch tab => { v with watches := v.watches ++ [(tab, v.leases.waitFor tab.text)] }
  | _ => v

/-- The hub takes an input. -/
def hubTakes (v : Vigil) (i : HubInput) : Vigil :=
  (v.hub.step i).2.foldl perform { v with hub := (v.hub.step i).1 }

def report (v : Vigil) (tab : TabId) (wait : Leases.Wait) : Vigil :=
  if (tab, wait) ∈ v.watches ∧ v.leases.isOver wait then
    { v with queue := v.queue ++ [.tabGone tab], watches := v.watches.erase (tab, wait) }
  else v

def handle (v : Vigil) : Vigil :=
  match v.queue with
  | [] => v
  | i :: rest => hubTakes { v with queue := rest } i

def move (v : Vigil) : Move → Vigil
  | .take name => { v with leases := (v.leases.take name).1 }
  | .release n => { v with leases := v.leases.release n }
  | .post i _ => { v with queue := v.queue ++ [i] }
  | .report tab wait => v.report tab wait
  | .handle => v.handle
  | .flush => v.hubTakes .flushDue

/-- A vigil from the start of its hub on. -/
def life (c : HubConfig) (ms : List Move) : Vigil := ms.foldl move { hub := (Hub.start c).1 }

@[simp] theorem life_snoc (c : HubConfig) (ms : List Move) (m : Move) :
    life c (ms ++ [m]) = (life c ms).move m := by
  simp [life]

/-- For every tab that is to be watched there is one watcher more. -/
theorem foldl_perform (v : Vigil) (es : List HubEffect) :
    es.foldl perform v =
      { v with watches := v.watches ++ (watched es).map fun tab => (tab, v.leases.waitFor tab.text) } := by
  induction es generalizing v with
  | nil => simp [watched]
  | cons e es ih =>
    rw [List.foldl_cons, ih]
    cases e with
    | watch tab => simp [perform, watched, watch?]
    | _ => rfl

theorem hubTakes_eq (v : Vigil) (i : HubInput) :
    v.hubTakes i =
      { v with
        hub := (v.hub.step i).1
        watches := v.watches ++
          (watched (v.hub.step i).2).map fun tab => (tab, v.leases.waitFor tab.text) } :=
  foldl_perform ..

theorem handle_eq {v : Vigil} {i : HubInput} {rest : List HubInput} (hq : v.queue = i :: rest) :
    v.handle = hubTakes { v with queue := rest } i := by
  unfold handle
  rw [hq]

theorem handle_of_nil {v : Vigil} (hq : v.queue = []) : v.handle = v := by
  unfold handle
  rw [hq]

/-! ## What every move keeps -/

/-- The watchers of a tab, and the reports of its end that wait for the hub. -/
def owed (v : Vigil) (tab : TabId) : Nat :=
  v.watches.countP (·.1 = tab) + v.queue.count (.tabGone tab)

structure Sound (v : Vigil) : Prop where
  owed : ∀ tab, v.owed tab = if v.hub.roster.contains tab then 1 else 0
  reports : ∀ tab, v.hub.activity.reports.contains tab → v.hub.roster.contains tab
  faithful : v.leases.Faithful
  names : ∀ tab n, (tab, some n) ∈ v.watches → v.leases.Names n tab.text

theorem count_of_gone?_none {i : HubInput} (hi : i.gone? = none) (tab : TabId) (rest : List HubInput) :
    (i :: rest).count (.tabGone tab) = rest.count (.tabGone tab) := by
  refine List.count_cons_of_ne ?_
  rintro rfl
  cases hi

theorem Sound.start (c : HubConfig) : (life c []).Sound where
  owed _ := rfl
  reports _ h := by cases h
  faithful := Leases.faithful_empty
  names _ _ h := by cases h

variable {v : Vigil}

theorem Sound.take (hv : v.Sound) (name : String) : (v.move (.take name)).Sound where
  owed := hv.owed
  reports := hv.reports
  faithful := hv.faithful.take name
  names tab n h := (hv.names tab n h).take name

theorem Sound.release (hv : v.Sound) (n : LeaseNumber) : (v.move (.release n)).Sound where
  owed := hv.owed
  reports := hv.reports
  faithful := hv.faithful.release n
  names tab m h := (hv.names tab m h).release n

theorem Sound.post (hv : v.Sound) {i : HubInput} (hi : i.gone? = none) :
    (v.move (.post i hi)).Sound where
  owed tab := by
    refine Eq.trans ?_ (hv.owed tab)
    simp only [Vigil.owed, move, List.count_append, count_of_gone?_none hi, List.count_nil, Nat.add_zero]
  reports := hv.reports
  faithful := hv.faithful
  names := hv.names

theorem Sound.report (hv : v.Sound) (tab : TabId) (wait : Leases.Wait) :
    (v.move (.report tab wait)).Sound := by
  change (v.report tab wait).Sound
  unfold Vigil.report
  split
  · next h =>
    refine ⟨fun x => ?_, hv.reports, hv.faithful, fun x n hx => hv.names x n (List.mem_of_mem_erase hx)⟩
    have hsplit : v.watches.countP (·.1 = x) =
        ((tab, wait) :: v.watches.erase (tab, wait)).countP (·.1 = x) :=
      (List.perm_cons_erase h.1).countP_eq _
    have hbefore := hv.owed x
    rw [Vigil.owed, hsplit, List.countP_cons] at hbefore
    rw [← hbefore, Vigil.owed, List.count_append, List.count_singleton]
    by_cases hx : tab = x
    · subst hx
      simp
      omega
    · simp [hx]
  · exact hv

/-- The hub takes an input that is no longer among those that wait. -/
theorem Sound.hubTakes {i : HubInput} (hv : Sound { v with queue := i :: v.queue }) :
    (v.hubTakes i).Sound := by
  rw [hubTakes_eq]
  have hbefore := hv.owed
  simp only [Vigil.owed] at hbefore
  cases v.hub.step_tabMove i with
  | stayed hinput hroster hwatched hreports =>
    simp only [hwatched, List.map_nil, List.append_nil]
    refine ⟨fun x => ?_, fun x hx => ?_, hv.faithful, hv.names⟩
    · rw [hroster, ← hbefore x, count_of_gone?_none hinput]
      rfl
    · rw [hroster]
      rcases hreports x hx with hold | hin
      · exact hv.reports x hold
      · exact hin
  | joined tab hinput hnew hroster hwatched hreports =>
    simp only [hwatched, List.map_cons, List.map_nil]
    refine ⟨fun x => ?_, fun x hx => ?_, hv.faithful, fun x n hx => ?_⟩
    · have hx := hbefore x
      rw [count_of_gone?_none hinput] at hx
      simp only [Vigil.owed, List.countP_append, List.countP_singleton, hroster]
      by_cases heq : x = tab
      · subst heq
        rw [hnew, if_neg (by decide)] at hx
        simp only [decide_true, Bool.true_or, if_true]
        omega
      · have hne : ¬ tab = x := fun h => heq h.symm
        simp only [heq, hne, decide_false, Bool.false_or, Bool.false_eq_true, if_false]
        exact hx
    · rw [hroster, Bool.or_eq_true]
      exact .inr (hv.reports x (hreports ▸ hx))
    · rcases List.mem_append.1 hx with hold | hadded
      · exact hv.names x n hold
      · obtain ⟨rfl, hwait⟩ := Prod.mk.inj (List.mem_singleton.1 hadded)
        exact hv.faithful.waitFor hwait.symm
  | left tab hinput hroster hwatched hreports =>
    subst hinput
    simp only [hwatched, List.map_nil, List.append_nil]
    refine ⟨fun x => ?_, fun x hx => ?_, hv.faithful, hv.names⟩
    · have hx := hbefore x
      simp only [Vigil.owed, hroster]
      by_cases heq : x = tab
      · subst heq
        rw [List.count_cons_self] at hx
        have hnone : v.watches.countP (·.1 = x) + v.queue.count (.tabGone x) = 0 := by
          split at hx <;> omega
        simpa using hnone
      · have hne : HubInput.tabGone tab ≠ .tabGone x := by
          rintro ⟨⟩
          exact heq rfl
        rw [List.count_cons_of_ne hne] at hx
        simpa [heq] using hx
    · obtain ⟨hold, hnot⟩ := hreports x hx
      have hin := hv.reports x hold
      have hne : x ≠ tab := by
        rintro rfl
        rw [hnot rfl] at hin
        cases hin
      rw [hroster, hin, decide_eq_true hne]
      rfl

theorem Sound.handle (hv : v.Sound) : (v.move .handle).Sound := by
  cases hq : v.queue with
  | nil => rwa [Vigil.move, handle_of_nil hq]
  | cons i rest =>
    rw [Vigil.move, handle_eq hq]
    refine Sound.hubTakes ?_
    rwa [← hq]

theorem Sound.flush (hv : v.Sound) : (v.move .flush).Sound := by
  refine Sound.hubTakes ⟨fun tab => ?_, hv.reports, hv.faithful, hv.names⟩
  rw [← hv.owed tab, Vigil.owed, count_of_gone?_none rfl]
  rfl

theorem Sound.move (hv : v.Sound) (m : Move) : (v.move m).Sound := by
  cases m with
  | take name => exact hv.take name
  | release n => exact hv.release n
  | post i hi => exact hv.post hi
  | report tab wait => exact hv.report tab wait
  | handle => exact hv.handle
  | flush => exact hv.flush

theorem life_sound (c : HubConfig) (ms : List Move) : (life c ms).Sound := by
  induction ms using List.reverseRecOn with
  | nil => exact .start c
  | append_singleton ms m ih =>
    rw [life_snoc]
    exact ih.move m

/-- At any time a registered tab has one watcher or one report of its end on its way, and a tab
that is not registered has neither; only of registered tabs is activity known. So when no end is
reported and no wait is over, the lease that a registered tab is watched by is held in its name. -/
theorem a_registered_tab_is_watched_once (c : HubConfig) (ms : List Move) :
    let v := life c ms
    (∀ tab, v.watches.countP (·.1 = tab) + v.queue.count (.tabGone tab) =
      if v.hub.roster.contains tab then 1 else 0) ∧
    (∀ tab, v.hub.activity.reports.contains tab → v.hub.roster.contains tab) ∧
    ((∀ i ∈ v.queue, i.gone? = none) → (∀ x ∈ v.watches, v.leases.isOver x.2 = false) →
      ∀ tab, v.hub.roster.contains tab →
        ∃ n, (tab, some n) ∈ v.watches ∧ v.leases.held.get? tab.text = some n) ∧
    (∀ p, v.hub.activity.summary.contains p ↔
      ∃ tab r, v.hub.roster.contains tab ∧ v.hub.activity.reports.get? tab = some r ∧ r.subject = p) ∧
    ∀ p, v.hub.activity.summary.get? p = some true ↔
      ∃ tab, v.hub.roster.contains tab ∧ v.hub.activity.reports.get? tab = some ⟨p, true⟩ := by
  intro v
  have hv : v.Sound := life_sound c ms
  have hreport : ∀ r, r ∈ v.hub.activity.reports.values ↔
      ∃ tab, v.hub.roster.contains tab ∧ v.hub.activity.reports.get? tab = some r := by
    intro r
    rw [KeyedMap.values, List.mem_map]
    constructor
    · rintro ⟨⟨tab, r⟩, hmem, rfl⟩
      have hget := (v.hub.activity.reports.get?_eq_some_iff tab r).2 hmem
      exact ⟨tab, hv.reports tab (by rw [KeyedMap.contains, hget]; rfl), hget⟩
    · rintro ⟨tab, -, hget⟩
      exact ⟨(tab, r), (v.hub.activity.reports.get?_eq_some_iff tab r).1 hget, rfl⟩
  refine ⟨hv.owed, hv.reports, fun hqueue hwatches tab htab => ?_, fun p => ?_, fun p => ?_⟩
  · have hnone : v.queue.count (.tabGone tab) = 0 :=
      List.count_eq_zero.2 fun hmem => by cases hqueue _ hmem
    have howed := hv.owed tab
    rw [owed, hnone, if_pos htab] at howed
    obtain ⟨⟨x, wait⟩, hmem, hx⟩ := List.countP_pos_iff.1 (by omega : 0 < v.watches.countP (·.1 = tab))
    obtain rfl : x = tab := of_decide_eq_true hx
    have hwaits := hwatches _ hmem
    cases wait with
    | none => cases hwaits
    | some n =>
      refine ⟨n, hmem, ?_⟩
      by_contra hfree
      rw [((hv.names x n hmem).isOver_iff).2 hfree] at hwaits
      cases hwaits
  · rw [Activity.contains_summary]
    constructor
    · rintro ⟨r, hr, rfl⟩
      obtain ⟨tab, htab, hget⟩ := (hreport r).1 hr
      exact ⟨tab, r, htab, hget, rfl⟩
    · rintro ⟨tab, r, htab, hget, rfl⟩
      exact ⟨r, (hreport r).2 ⟨tab, htab, hget⟩, rfl⟩
  · rw [Activity.summary_eq_true, hreport]

/-- A tab takes its lease, attaches, and reports that its user is active on a puzzle. -/
def arrival : List Move :=
  [.take (TabId.mk 1).text, .post (.fromTab (.start ⟨1⟩ none) (some 0)) rfl, .handle,
    .post (.fromTab (.activity ⟨1⟩ ⟨4⟩ true) none) rfl, .handle]

theorem the_tab_that_arrived_is_watched_by_its_lease :
    ∃ n, (⟨1⟩, some n) ∈ (life {} arrival).watches ∧
      (life {} arrival).leases.held.get? (TabId.mk 1).text = some n :=
  (a_registered_tab_is_watched_once {} arrival).2.2.1 (by decide) (by decide) ⟨1⟩ (by decide)

end Vigil

end HuntBoard
