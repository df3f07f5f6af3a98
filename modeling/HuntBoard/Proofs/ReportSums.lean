-- The activity of all tabs as one sum: it is made from the last report of each tab, and it is told
-- when it is not what was told last. In which order different tabs report does not matter.
import HuntBoard.Activity
import HuntBoard.Proofs.KeyedMap
import Mathlib.Data.List.Induction

namespace HuntBoard

namespace Activity

/-! ## The sum -/

/-- What an element brings about when it is folded in, a list brings about by one of its own. -/
theorem foldl_iff_exists {α β : Type} {f : β → α → β} {P : β → Prop} {Q : α → Prop}
    (h : ∀ b x, P (f b x) ↔ P b ∨ Q x) (l : List α) (b : β) :
    P (l.foldl f b) ↔ P b ∨ ∃ x ∈ l, Q x := by
  induction l generalizing b with
  | nil => simp
  | cons x l ih => simp [ih, h, or_assoc]

theorem contains_count (sum : ActivitySummary) (r : ActivityReport) (p : PuzzleId) :
    (count sum r).contains p ↔ sum.contains p ∨ r.subject = p := by
  by_cases hr : p = r.subject
  · subst hr
    simp [count, KeyedMap.contains]
  · simp [count, KeyedMap.contains, KeyedMap.get?_insert_ne, hr, Ne.symm hr]

theorem count_eq_true (sum : ActivitySummary) (r : ActivityReport) (p : PuzzleId) :
    (count sum r).get? p = some true ↔ sum.get? p = some true ∨ r = ⟨p, true⟩ := by
  obtain ⟨subject, active⟩ := r
  by_cases hr : p = subject
  · subst hr
    have hcount : (count sum ⟨p, active⟩).get? p = some ((sum.get? p).getD false || active) :=
      KeyedMap.get?_insert_self ..
    rw [hcount]
    cases sum.get? p <;> simp
  · simp [count, KeyedMap.get?_insert_ne, hr, Ne.symm hr]

/-- A puzzle is in the summary when a report is about it. -/
theorem contains_summary (a : Activity) (p : PuzzleId) :
    a.summary.contains p ↔ ∃ r ∈ a.reports.values, r.subject = p := by
  have hfold := foldl_iff_exists (P := fun sum : ActivitySummary => sum.contains p)
    (fun sum r => contains_count sum r p) a.reports.values .empty
  simpa [summary, KeyedMap.contains] using hfold

/-- A puzzle is active in the summary when a report says so. -/
theorem summary_eq_true (a : Activity) (p : PuzzleId) :
    a.summary.get? p = some true ↔ ⟨p, true⟩ ∈ a.reports.values := by
  have hfold := foldl_iff_exists (P := fun sum : ActivitySummary => sum.get? p = some true)
    (fun sum r => count_eq_true sum r p) a.reports.values .empty
  simpa [summary] using hfold

/-! ## Telling -/

section

variable (a : Activity)

/-- There is news unless what was sent last is what is known. -/
theorem news_cases :
    (a.sent.getD .empty = a.summary ∧ a.news = (a, none)) ∨
    a.news = ({ a with sent := some a.summary }, some a.summary) := by
  unfold news
  by_cases hs : a.sent.getD .empty = a.summary
  · exact Or.inl ⟨hs, if_pos hs⟩
  · exact Or.inr (if_neg hs)

/-- All that is known is taken, if anything is. -/
theorem all_cases :
    (a.summary = .empty ∧ a.all = (a, none)) ∨
    a.all = ({ a with sent := some a.summary }, some a.summary) := by
  unfold all
  by_cases hs : a.summary.isEmpty
  · exact Or.inl ⟨KeyedMap.eq_empty_of_isEmpty hs, if_pos hs⟩
  · exact Or.inr (if_neg hs)

theorem news_reports : a.news.1.reports = a.reports := by
  rcases a.news_cases with ⟨-, h⟩ | h <;> rw [h]

theorem all_reports : a.all.1.reports = a.reports := by
  rcases a.all_cases with ⟨-, h⟩ | h <;> rw [h]

/-- Once news was asked for, the summary is what was sent last. -/
theorem sent_news : a.news.1.sent.getD .empty = a.news.1.summary := by
  rcases a.news_cases with ⟨hsame, h⟩ | h
  · rw [h]
    exact hsame
  · rw [h]
    rfl

theorem news_eq_none_iff : a.news.2 = none ↔ a.summary = a.sent.getD .empty := by
  unfold news
  split
  · rename_i hs
    simp [hs]
  · rename_i hs
    simp [Ne.symm hs]

theorem news_eq_some_iff (s : ActivitySummary) :
    a.news.2 = some s ↔ s = a.summary ∧ s ≠ a.sent.getD .empty := by
  unfold news
  split
  · rename_i hs
    simp [hs]
  · rename_i hs
    constructor
    · intro h
      obtain rfl := Option.some.inj h
      exact ⟨rfl, Ne.symm hs⟩
    · rintro ⟨rfl, -⟩
      rfl

end

/-! ## What is done to a table of reports -/

inductive Act where
  | report (tab : TabId) (subject : PuzzleId) (active : Bool)
  | forget (tab : TabId)
  | news
  | all
  deriving DecidableEq

/-- The tab that an act is about. -/
def Act.tab? : Act → Option TabId
  | report tab _ _ | forget tab => some tab
  | news | all => none

def Act.report? : Act → Option ActivityReport
  | report _ subject active => some ⟨subject, active⟩
  | _ => none

/-- The latest report of a tab, if the tab was not forgotten since. -/
def latest? (acts : List Act) (tab : TabId) : Option ActivityReport :=
  (acts.filter (·.tab? = some tab)).getLast?.bind Act.report?

/-- A table after an act, and the answer to it if the act asks for one. -/
def take (a : Activity) : Act → Activity × List (Option ActivitySummary)
  | .report tab subject active => (a.report tab subject active, [])
  | .forget tab => (a.forget tab, [])
  | .news => (a.news.1, [a.news.2])
  | .all => (a.all.1, [a.all.2])

/-- A new table after acts, and the answers to them in order. -/
def run (acts : List Act) : Activity × List (Option ActivitySummary) :=
  acts.foldl (fun o act => ((o.1.take act).1, o.2 ++ (o.1.take act).2)) ({}, [])

/-- The summary that was answered last; at first it is as if an empty one had been. -/
def lastTold (answers : List (Option ActivitySummary)) : ActivitySummary :=
  (answers.filterMap id).getLast?.getD .empty

section

variable (acts more : List Act) (act : Act)

theorem run_concat :
    run (acts ++ [act]) = (((run acts).1.take act).1, (run acts).2 ++ ((run acts).1.take act).2) := by
  simp [run, List.foldl_append]

variable {acts} in
theorem run_append_congr {acts' : List Act} (h : run acts = run acts') :
    run (acts ++ more) = run (acts' ++ more) := by
  unfold run at h ⊢
  rw [List.foldl_append, List.foldl_append, h]

theorem latest?_concat (tab : TabId) :
    latest? (acts ++ [act]) tab = if act.tab? = some tab then act.report? else latest? acts tab := by
  unfold latest?
  rw [List.filter_append]
  by_cases hact : act.tab? = some tab
  · simp [hact]
  · simp [hact]

/-! ## The reports and the last answer -/

/-- What is kept of a tab is its latest report. -/
theorem get?_reports_run (tab : TabId) : (run acts).1.reports.get? tab = latest? acts tab := by
  induction acts using List.reverseRecOn with
  | nil => rfl
  | append_singleton acts act ih =>
    rw [run_concat, latest?_concat]
    cases act with
    | report tab' subject active =>
      by_cases htab : tab = tab'
      · subst htab
        simp [take, report, Act.tab?, Act.report?]
      · simp [take, report, Act.tab?, KeyedMap.get?_insert_ne _ _ htab, Ne.symm htab, ih]
    | forget tab' =>
      by_cases htab : tab = tab'
      · subst htab
        simp [take, forget, Act.tab?, Act.report?]
      · simp [take, forget, Act.tab?, KeyedMap.get?_erase_ne _ htab, Ne.symm htab, ih]
    | news => simp [take, news_reports, Act.tab?, ih]
    | all => simp [take, all_reports, Act.tab?, ih]

theorem sent_run : (run acts).1.sent = ((run acts).2.filterMap id).getLast? := by
  induction acts using List.reverseRecOn with
  | nil => rfl
  | append_singleton acts act ih =>
    rw [run_concat, List.filterMap_append]
    cases act with
    | report | forget => simpa [take, report, forget] using ih
    | news =>
      rcases (run acts).1.news_cases with ⟨-, h⟩ | h
      · simpa [take, h] using ih
      · simp [take, h]
    | all =>
      rcases (run acts).1.all_cases with ⟨-, h⟩ | h
      · simpa [take, h] using ih
      · simp [take, h]

theorem sent_eq_lastTold : (run acts).1.sent.getD .empty = lastTold (run acts).2 := by
  rw [sent_run]
  rfl

/-- Acts that are about tabs are not answered, and leave what was sent. -/
theorem run_append_of_tabs {l : List Act} (hl : ∀ act ∈ l, act.tab?.isSome) :
    (run (acts ++ l)).1.sent = (run acts).1.sent ∧ (run (acts ++ l)).2 = (run acts).2 := by
  induction l using List.reverseRecOn with
  | nil => simp
  | append_singleton l act ih =>
    obtain ⟨hsent, hanswers⟩ := ih fun x hx => hl x (List.mem_append_left _ hx)
    rw [← List.append_assoc, run_concat, ← hsent, ← hanswers]
    have hact := hl act (by simp)
    cases act with
    | report | forget => simp [take, report, forget]
    | news | all => simp [Act.tab?] at hact

/-- As long as each tab's own acts keep their order, acts about tabs come to the same in any. -/
theorem run_reordered {l m : List Act} (hl : ∀ act ∈ l, act.tab?.isSome)
    (hm : ∀ act ∈ m, act.tab?.isSome)
    (hsame : ∀ tab, l.filter (·.tab? = some tab) = m.filter (·.tab? = some tab)) :
    run (acts ++ l) = run (acts ++ m) := by
  obtain ⟨hsentl, hanswersl⟩ := run_append_of_tabs acts hl
  obtain ⟨hsentm, hanswersm⟩ := run_append_of_tabs acts hm
  have hreports : (run (acts ++ l)).1.reports = (run (acts ++ m)).1.reports :=
    KeyedMap.ext_get? fun tab => by
      rw [get?_reports_run, get?_reports_run, latest?, latest?, List.filter_append,
        List.filter_append, hsame]
  have htable : (run (acts ++ l)).1 = (run (acts ++ m)).1 := by
    cases hleft : (run (acts ++ l)).1
    cases hright : (run (acts ++ m)).1
    simp_all
  exact Prod.ext htable (hanswersl.trans hanswersm.symm)

end

/-- A report in the table of a run is the latest of a tab. -/
theorem mem_values_run (acts : List Act) (r : ActivityReport) :
    r ∈ (run acts).1.reports.values ↔ ∃ tab, latest? acts tab = some r := by
  rw [KeyedMap.mem_values]
  simp only [get?_reports_run]

theorem contains_summary_run (acts : List Act) (p : PuzzleId) :
    (run acts).1.summary.contains p ↔ ∃ tab active, latest? acts tab = some ⟨p, active⟩ := by
  rw [contains_summary]
  constructor
  · rintro ⟨⟨subject, active⟩, hr, rfl⟩
    obtain ⟨tab, htab⟩ := (mem_values_run acts _).1 hr
    exact ⟨tab, active, htab⟩
  · rintro ⟨tab, active, htab⟩
    exact ⟨⟨p, active⟩, (mem_values_run acts _).2 ⟨tab, htab⟩, rfl⟩

theorem summary_run_eq_true (acts : List Act) (p : PuzzleId) :
    (run acts).1.summary.get? p = some true ↔ ∃ tab, latest? acts tab = some ⟨p, true⟩ := by
  rw [summary_eq_true]
  exact mem_values_run acts _

/-! ## The law -/

/-- A puzzle is in the summary when the latest report of some tab that was not forgotten since is
about it, and it is active there when one of those reports says so. There is news exactly when the
summary is not the one that was answered last, and then the news is the summary; so once news was
asked for, the summary is what was answered last. Reports of different tabs may come in another
order, among each other and among what is said of other tabs, and the answers stay the same. -/
theorem the_sum_of_the_latest_reports_is_told_on_change (acts : List Act) :
    let a := (run acts).1
    let told := lastTold (run acts).2
    let next := run (acts ++ [.news])
    (∀ p, a.summary.contains p ↔ ∃ tab active, latest? acts tab = some ⟨p, active⟩) ∧
    (∀ p, a.summary.get? p = some true ↔ ∃ tab, latest? acts tab = some ⟨p, true⟩) ∧
    (∀ s, a.news.2 = some s ↔ s = a.summary ∧ s ≠ told) ∧
    (a.news.2 = none ↔ a.summary = told) ∧
    lastTold next.2 = next.1.summary ∧
    ∀ l m after, (∀ act ∈ l, act.tab?.isSome) → (∀ act ∈ m, act.tab?.isSome) →
      (∀ tab, l.filter (·.tab? = some tab) = m.filter (·.tab? = some tab)) →
      (run (acts ++ l ++ after)).2 = (run (acts ++ m ++ after)).2 := by
  intro a told next
  have hsent : a.sent.getD .empty = told := sent_eq_lastTold acts
  refine ⟨contains_summary_run acts, summary_run_eq_true acts, ?_, ?_, ?_, ?_⟩
  · intro s
    rw [← hsent]
    exact a.news_eq_some_iff s
  · rw [← hsent]
    exact a.news_eq_none_iff
  · have hnext : next.1 = a.news.1 := by simp [next, a, run_concat, take]
    have htold : next.1.sent.getD .empty = lastTold next.2 := sent_eq_lastTold _
    rw [← htold, hnext]
    exact a.sent_news
  · intro l m after hl hm hsame
    rw [run_append_congr after (run_reordered acts hl hm hsame)]

def near : TabId := ⟨1⟩

def far : TabId := ⟨2⟩

/-- One tab works on puzzle 4, as is told; another joins it there, and the first goes on to
puzzle 5. -/
def aMove : List Act :=
  [.report near ⟨4⟩ true, .news, .report far ⟨4⟩ false, .report near ⟨5⟩ true]

/-- There is news then; and when both tabs report once more, either may be the first. -/
theorem either_tab_may_report_first :
    let back : List Act := [.report far ⟨4⟩ true, .report near ⟨4⟩ false]
    let otherWay : List Act := [.report near ⟨4⟩ false, .report far ⟨4⟩ true]
    (run aMove).1.news.2 = some (.ofList [(⟨4⟩, false), (⟨5⟩, true)]) ∧
    (∀ act ∈ back, act.tab?.isSome) ∧ (∀ act ∈ otherWay, act.tab?.isSome) ∧
    (∀ tab, back.filter (·.tab? = some tab) = otherWay.filter (·.tab? = some tab)) ∧
    (run (aMove ++ back ++ [.news, .forget near, .all])).2 =
      (run (aMove ++ otherWay ++ [.news, .forget near, .all])).2 := by
  intro back otherWay
  obtain ⟨-, -, hnews, -, -, horder⟩ := the_sum_of_the_latest_reports_is_told_on_change aMove
  have hback : ∀ act ∈ back, act.tab?.isSome := by decide
  have hother : ∀ act ∈ otherWay, act.tab?.isSome := by decide
  have hsame : ∀ tab, back.filter (·.tab? = some tab) = otherWay.filter (·.tab? = some tab) := by
    intro tab
    by_cases hnear : tab = near
    · subst hnear
      decide
    · by_cases hfar : tab = far
      · subst hfar
        decide
      · simp [back, otherWay, Act.tab?, Ne.symm hnear, Ne.symm hfar]
  exact ⟨(hnews _).2 (by decide), hback, hother, hsame,
    horder back otherWay [.news, .forget near, .all] hback hother hsame⟩

end Activity

end HuntBoard
