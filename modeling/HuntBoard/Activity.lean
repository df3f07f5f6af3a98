-- What the users of the tabs work on, told to the server as one value for each
-- puzzle, and only when there is news.
import HuntBoard.Ids
import HuntBoard.KeyedMap

namespace HuntBoard

/-- By puzzle, whether any tab is active on it. -/
abbrev ActivitySummary := KeyedMap PuzzleId Bool

/-- A tab's last report: a puzzle, and whether its user is active on it. -/
structure ActivityReport where
  subject : PuzzleId
  active : Bool
  deriving DecidableEq

/-- The last report of every tab, and the summary that was sent last. -/
structure Activity where
  reports : KeyedMap TabId ActivityReport := .empty
  sent : Option ActivitySummary := none
  deriving DecidableEq

namespace Activity

def report (a : Activity) (tab : TabId) (subject : PuzzleId) (active : Bool) : Activity :=
  { a with reports := a.reports.insert tab ⟨subject, active⟩ }

/-- Forget a tab. -/
def forget (a : Activity) (tab : TabId) : Activity := { a with reports := a.reports.erase tab }

/-- Count a report in: a puzzle is active when one report says so. -/
def count (sum : ActivitySummary) (r : ActivityReport) : ActivitySummary :=
  sum.insert r.subject ((sum.get? r.subject).getD false || r.active)

def summary (a : Activity) : ActivitySummary := a.reports.values.foldl count .empty

/-- The summary if it is not what was sent last; at first, nothing was sent and
an empty summary is no news. -/
def news (a : Activity) : Activity × Option ActivitySummary :=
  if a.sent.getD .empty = a.summary then (a, none)
  else ({ a with sent := some a.summary }, some a.summary)

/-- The summary for a connection that has seen nothing; an empty one is not sent. -/
def all (a : Activity) : Activity × Option ActivitySummary :=
  if a.summary.isEmpty then (a, none)
  else ({ a with sent := some a.summary }, some a.summary)

end Activity

end HuntBoard
