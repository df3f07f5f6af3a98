-- When a tab is evicted: its lease has been free at some moment while it was registered, though
-- perhaps before the tab was started for the last time.
import HuntBoard.Proofs.Vigil
import Mathlib.Data.List.Infix

namespace HuntBoard.Vigil

/-! ## What a watcher and a report stand for -/

variable {v : Vigil} {c : HubConfig} {ms : List Move} {tab : TabId}

theorem Sound.contains_of_owed (hv : v.Sound) (h : 0 < v.owed tab) : v.hub.roster.contains tab := by
  by_contra hout
  rw [hv.owed, if_neg hout] at h
  exact absurd h (Nat.lt_irrefl 0)

theorem Sound.contains_of_watch {wait : Leases.Wait} (hv : v.Sound) (h : (tab, wait) ∈ v.watches) :
    v.hub.roster.contains tab :=
  hv.contains_of_owed (Nat.add_pos_left (List.countP_pos_iff.2 ⟨_, h, decide_eq_true rfl⟩) _)

theorem Sound.contains_of_gone (hv : v.Sound) (h : .tabGone tab ∈ v.queue) :
    v.hub.roster.contains tab :=
  hv.contains_of_owed (Nat.add_pos_right _ (List.count_pos_iff.2 h))

/-- The lease of a tab was free at some moment from which on the tab is registered. -/
def FreedSince (c : HubConfig) (ms : List Move) (tab : TabId) : Prop :=
  ∃ a b, ms = a ++ b ∧ (life c a).leases.isHeld tab.text = false ∧
    ∀ p, p <+: b → (life c (a ++ p)).hub.roster.contains tab

theorem FreedSince.snoc {m : Move} (h : FreedSince c ms tab)
    (hin : (life c (ms ++ [m])).hub.roster.contains tab) : FreedSince c (ms ++ [m]) tab := by
  obtain ⟨a, b, rfl, hfree, hb⟩ := h
  refine ⟨a, b ++ [m], List.append_assoc .., hfree, fun p hp => ?_⟩
  rcases List.prefix_concat_iff.1 hp with rfl | hp
  · rwa [← List.append_assoc]
  · exact hb p hp

theorem freedSince_now (hfree : (life c ms).leases.isHeld tab.text = false)
    (hin : (life c ms).hub.roster.contains tab) : FreedSince c ms tab := by
  refine ⟨ms, [], (List.append_nil _).symm, hfree, fun p hp => ?_⟩
  rwa [List.prefix_nil.1 hp, List.append_nil]

/-- A watcher waits for the lease that is held now, unless the lease was free before, and the
report of an end is owed to a lease that was free. -/
structure Excused (c : HubConfig) (ms : List Move) : Prop where
  watch : ∀ tab wait, (tab, wait) ∈ (life c ms).watches → FreedSince c ms tab ∨
    ∃ n, wait = some n ∧ (life c ms).leases.held.get? tab.text = some n
  gone : ∀ tab, .tabGone tab ∈ (life c ms).queue → FreedSince c ms tab

/-! ## What every move keeps -/

theorem isHeld_eq_false_iff {t : Leases} {name : String} :
    t.isHeld name = false ↔ t.held.get? name = none := by
  simp [Leases.isHeld, KeyedMap.contains]

theorem excused_start (c : HubConfig) : Excused c [] where
  watch _ _ h := by cases h
  gone _ h := by cases h

section

variable {m : Move}

/-- A watcher that was there before the move is excused after it, if its lease is as it was, or
was given back just now. -/
theorem Excused.keep (h : Excused c ms) {wait : Leases.Wait}
    (hbefore : (tab, wait) ∈ (life c ms).watches) (hin : (life c (ms ++ [m])).hub.roster.contains tab)
    (hlease : ∀ n, (life c ms).leases.held.get? tab.text = some n →
      FreedSince c (ms ++ [m]) tab ∨ (life c (ms ++ [m])).leases.held.get? tab.text = some n) :
    FreedSince c (ms ++ [m]) tab ∨
      ∃ n, wait = some n ∧ (life c (ms ++ [m])).leases.held.get? tab.text = some n := by
  rcases h.watch tab wait hbefore with hfreed | ⟨n, rfl, hn⟩
  · exact .inl (hfreed.snoc hin)
  · exact (hlease n hn).imp_right fun hn => ⟨n, rfl, hn⟩

/-- A move that leaves the watchers and brings no report keeps all excused, if a lease that is not
as it was was given back. -/
theorem Excused.of_leases (h : Excused c ms)
    (hwatches : (life c (ms ++ [m])).watches ⊆ (life c ms).watches)
    (hqueue : ∀ tab, .tabGone tab ∈ (life c (ms ++ [m])).queue → .tabGone tab ∈ (life c ms).queue)
    (hleases : ∀ name n, (life c ms).leases.held.get? name = some n →
      (life c (ms ++ [m])).leases.held.get? name = none ∨
        (life c (ms ++ [m])).leases.held.get? name = some n) : Excused c (ms ++ [m]) := by
  have hv := life_sound c (ms ++ [m])
  constructor
  · intro tab wait hmem
    have hin := hv.contains_of_watch hmem
    refine h.keep (hwatches hmem) hin fun n hn => ?_
    exact (hleases _ n hn).imp_left fun hfree => freedSince_now (isHeld_eq_false_iff.2 hfree) hin
  · intro tab hmem
    exact (h.gone tab (hqueue tab hmem)).snoc (hv.contains_of_gone hmem)

theorem Excused.of_same (h : Excused c ms) (hsame : (life c ms).move m = life c ms) :
    Excused c (ms ++ [m]) := by
  have hlife := (life_snoc c ms m).trans hsame
  exact h.of_leases (by rw [hlife]; exact List.Subset.refl _) (by rw [hlife]; exact fun _ => id)
    (by rw [hlife]; exact fun _ _ => .inr)

end

theorem Excused.take (h : Excused c ms) (name : String) : Excused c (ms ++ [.take name]) := by
  have hlife := life_snoc c ms (.take name)
  refine h.of_leases (by rw [hlife]; exact List.Subset.refl _) (by rw [hlife]; exact fun _ => id) ?_
  intro x n hn
  have htaken : ¬ (x = name ∧ (life c ms).leases.held.get? name = none) := by
    rintro ⟨rfl, hfree⟩
    rw [hn] at hfree
    cases hfree
  rw [hlife]
  exact .inr (((life c ms).leases.get?_take name x).trans ((if_neg htaken).trans hn))

theorem Excused.release (h : Excused c ms) (k : LeaseNumber) : Excused c (ms ++ [.release k]) := by
  have hlife := life_snoc c ms (.release k)
  refine h.of_leases (by rw [hlife]; exact List.Subset.refl _) (by rw [hlife]; exact fun _ => id) ?_
  intro x n hn
  have hget := (life c ms).leases.get?_release k x
  rw [hlife]
  by_cases hk : (life c ms).leases.held.get? x = some k
  · exact .inl (hget.trans (if_pos hk))
  · exact .inr (hget.trans ((if_neg hk).trans hn))

theorem Excused.post (h : Excused c ms) {i : HubInput} (hi : i.gone? = none) :
    Excused c (ms ++ [.post i hi]) := by
  have hlife := life_snoc c ms (.post i hi)
  refine h.of_leases (by rw [hlife]; exact List.Subset.refl _) ?_ (by rw [hlife]; exact fun _ _ => .inr)
  intro tab hmem
  rw [hlife] at hmem
  rcases List.mem_append.1 hmem with hold | hnew
  · exact hold
  · rw [← List.mem_singleton.1 hnew] at hi
    cases hi

theorem Excused.report (h : Excused c ms) (x : TabId) (wait : Leases.Wait) :
    Excused c (ms ++ [.report x wait]) := by
  by_cases hover : (x, wait) ∈ (life c ms).watches ∧ (life c ms).leases.isOver wait
  · have hlife : life c (ms ++ [.report x wait]) =
        { life c ms with
          queue := (life c ms).queue ++ [.tabGone x]
          watches := (life c ms).watches.erase (x, wait) } :=
      (life_snoc c ms (.report x wait)).trans (if_pos hover)
    have hv := life_sound c (ms ++ [.report x wait])
    constructor
    · intro tab w hmem
      refine h.keep ?_ (hv.contains_of_watch hmem) fun n hn => .inr (by rwa [hlife])
      rw [hlife] at hmem
      exact List.mem_of_mem_erase hmem
    · intro tab hmem
      have hin := hv.contains_of_gone hmem
      rw [hlife] at hmem
      rcases List.mem_append.1 hmem with hold | hnew
      · exact (h.gone tab hold).snoc hin
      · -- The wait is over, so the lease that is held now is not the one that was waited for.
        obtain rfl := HubInput.tabGone.inj (List.mem_singleton.1 hnew)
        rcases h.watch _ wait hover.1 with hfreed | ⟨n, rfl, hn⟩
        · exact hfreed.snoc hin
        · exact absurd hn (((life_sound c ms).names _ n hover.1).isOver_iff.1 hover.2)
  · exact h.of_same (if_neg hover)

/-- Who is watched from now on is watched by the lease that is held now, if any is. -/
theorem Excused.hubTakes (h : Excused c ms) {m : Move} {i : HubInput} {rest : List HubInput}
    (hmove : (life c ms).move m = hubTakes { life c ms with queue := rest } i)
    (hrest : rest ⊆ (life c ms).queue) : Excused c (ms ++ [m]) := by
  have hlife := ((life_snoc c ms m).trans hmove).trans (hubTakes_eq ..)
  have hv := life_sound c (ms ++ [m])
  have hleases : (life c (ms ++ [m])).leases = (life c ms).leases := by rw [hlife]
  constructor
  · intro tab wait hmem
    have hin := hv.contains_of_watch hmem
    rw [hlife] at hmem
    rcases List.mem_append.1 hmem with hold | hnew
    · exact h.keep hold hin fun n hn => .inr (by rwa [hleases])
    · obtain ⟨x, -, hx⟩ := List.mem_map.1 hnew
      obtain ⟨rfl, rfl⟩ := Prod.mk.inj hx
      cases hheld : (life c ms).leases.held.get? x.text with
      | none => exact .inl (freedSince_now (isHeld_eq_false_iff.2 (by rwa [hleases])) hin)
      | some n => exact .inr ⟨n, hheld, by rwa [hleases]⟩
  · intro tab hmem
    have hin := hv.contains_of_gone hmem
    rw [hlife] at hmem
    exact (h.gone tab (hrest hmem)).snoc hin

theorem Excused.handle (h : Excused c ms) : Excused c (ms ++ [.handle]) := by
  cases hq : (life c ms).queue with
  | nil => exact h.of_same (handle_of_nil hq)
  | cons i rest => exact h.hubTakes (handle_eq hq) (hq ▸ List.subset_cons_self i rest)

theorem Excused.flush (h : Excused c ms) : Excused c (ms ++ [.flush]) :=
  h.hubTakes (i := .flushDue) rfl (List.Subset.refl _)

theorem Excused.snoc (h : Excused c ms) (m : Move) : Excused c (ms ++ [m]) := by
  cases m with
  | take name => exact h.take name
  | release n => exact h.release n
  | post i hi => exact h.post hi
  | report tab wait => exact h.report tab wait
  | handle => exact h.handle
  | flush => exact h.flush

theorem life_excused (c : HubConfig) (ms : List Move) : Excused c ms := by
  induction ms using List.reverseRecOn with
  | nil => exact excused_start c
  | append_singleton ms m ih => exact ih.snoc m

/-! ## Evictions -/

/-- Only the report of its end takes a tab away. -/
theorem gone_of_detached {h : Hub} {i : HubInput} (hin : h.roster.contains tab)
    (hout : (h.step i).1.roster.contains tab = false) : i = .tabGone tab := by
  have hstays : (h.step i).1.roster.contains tab ≠ h.roster.contains tab := by
    rw [hin, hout]
    decide
  cases h.step_tabMove i with
  | stayed input roster => exact absurd (roster tab) hstays
  | joined x input before roster => exact absurd ((roster tab).trans (by simp [hin])) hstays
  | left x input roster =>
    by_cases hx : tab = x
    · rw [input, hx]
    · exact absurd ((roster tab).trans (by simp [hx])) hstays

/-- A tab that goes was reported as gone by the input that the hub takes. -/
theorem queue_of_eviction {m : Move} (hin : v.hub.roster.contains tab)
    (hout : (v.move m).hub.roster.contains tab = false) : .tabGone tab ∈ v.queue := by
  have hstays : (v.move m).hub ≠ v.hub := by
    intro hhub
    rw [hhub, hin] at hout
    cases hout
  cases m with
  | take name => exact absurd rfl hstays
  | release n => exact absurd rfl hstays
  | post i hi => exact absurd rfl hstays
  | report x wait =>
    refine absurd ?_ hstays
    change (v.report x wait).hub = v.hub
    unfold Vigil.report
    split <;> rfl
  | handle =>
    change v.handle.hub.roster.contains tab = false at hout
    cases hq : v.queue with
    | nil => exact absurd (congrArg Vigil.hub (handle_of_nil hq)) hstays
    | cons i rest =>
      rw [handle_eq hq, hubTakes_eq] at hout
      obtain rfl := gone_of_detached hin hout
      exact List.mem_cons_self
  | flush =>
    change (v.hubTakes .flushDue).hub.roster.contains tab = false at hout
    rw [hubTakes_eq] at hout
    cases gone_of_detached hin hout

/-- A tab is evicted only when its lease was free at some moment from which on, until then, the tab
was registered. -/
theorem a_tab_leaves_only_after_its_lease_was_free (c : HubConfig) (ms : List Move) (m : Move)
    (tab : TabId) (hin : (life c ms).hub.roster.contains tab)
    (hout : (life c (ms ++ [m])).hub.roster.contains tab = false) :
    ∃ a b, ms = a ++ b ∧ (life c a).leases.isHeld tab.text = false ∧
      ∀ p, p <+: b → (life c (a ++ p)).hub.roster.contains tab := by
  rw [life_snoc] at hout
  exact (life_excused c ms).gone tab (queue_of_eviction hin hout)

/-- A tab attaches under its lease, and gives the lease back; whoever waits for that tells the hub. -/
def departure : List Move :=
  arrival ++ [.release 0, .report ⟨1⟩ (some 0)]

theorem the_tab_that_departed_left_its_lease :
    ∃ a b, departure = a ++ b ∧ (life {} a).leases.isHeld (TabId.mk 1).text = false ∧
      ∀ p, p <+: b → (life {} (a ++ p)).hub.roster.contains ⟨1⟩ :=
  a_tab_leaves_only_after_its_lease_was_free {} departure .handle ⟨1⟩ (by decide) (by decide)

/-- The tab that is started by a move. -/
def Move.start? : Move → Option TabId
  | .post (.fromTab (.start tab _) _) _ => some tab
  | _ => none

/-- The lease may have been free only before the tab was started for the last time: a tab takes its
lease again and is started again before the report of its end comes, and is evicted while it holds
the lease. -/
theorem a_tab_that_came_back_is_evicted :
    ¬ ∀ (c : HubConfig) (before after : List Move) (tab : TabId) (scope : Option PuzzleId)
        (inbox : Inbox), (∀ m ∈ after, m.start? ≠ some tab) →
      let ms := before ++ [.post (.fromTab (.start tab scope) (some inbox)) rfl]
      (life c (ms ++ after)).hub.roster.contains tab →
      (life c (ms ++ after ++ [.handle])).hub.roster.contains tab = false →
      ∃ p, p <+: after ∧ (life c (ms ++ p)).leases.isHeld tab.text = false := by
  intro h
  obtain ⟨p, hp, hfree⟩ := h {} (arrival ++ [.release 0] ++ [.take (TabId.mk 1).text])
    [.report ⟨1⟩ (some 0), .handle] ⟨1⟩ none 1 (by decide) (by decide) (by decide)
  have hheld : ∀ p ∈ [.report ⟨1⟩ (some 0), .handle].inits,
      (life {} (arrival ++ [.release 0] ++ [.take (TabId.mk 1).text] ++
        [.post (.fromTab (.start ⟨1⟩ none) (some 1)) rfl] ++ p)).leases.isHeld (TabId.mk 1).text := by
    decide
  rw [hheld p ((List.mem_inits ..).2 hp)] at hfree
  cases hfree

end HuntBoard.Vigil
