-- The board as lines of text, and what watching it puts on the screen.
import HuntBoard.Board
import HuntBoard.Tab

namespace HuntBoard.CommandLine

/-! ## Lines -/

/-- A text with blanks behind it to fill a column. -/
def padded (width : Nat) (s : String) : String :=
  s ++ String.ofList (List.replicate (width - s.length) ' ')

/-- When a reminder is due: the day of the week and the time of day, in UTC. -/
def reminderText (t : Instant) : String :=
  let two (n : Nat) : String := String.ofList (Text.paddedDecimal 2 n)
  "  ⏰ " ++ t.date.weekday ++ " " ++ two t.hour ++ ":" ++ two t.minute

def puzzleLine (p : Puzzle) : String :=
  "    " ++ padded 12 p.status.label ++ " " ++ p.name ++ (if p.isMeta then " [meta]" else "") ++ "  " ++
    p.answer ++ (p.reminder.map reminderText).getD ""

def roundLine (r : RoundBoard) : String :=
  (if r.complete then "✔" else " ") ++ " " ++ r.displayName ++ "  " ++ toString r.solved ++ "/" ++
    toString r.total

/-- The lines of a board: how far it is, then each round with its puzzles. -/
def boardLines (b : Board) : List String :=
  ("── " ++ toString b.solvedCount ++ " of " ++ toString b.puzzleCount ++ " solved ──") ::
    b.rounds.flatMap fun r => roundLine r :: r.puzzles.map puzzleLine

/-- Lines as they are printed. -/
def printed (lines : List String) : String := String.join (lines.map fun l => l ++ "\n")

/-! ## Watching -/

/-- What a tab shows and tells while it is watched. -/
inductive News where
  | board (b : Board)
  | event (e : TabEvent)
  /-- The tab runs no more. -/
  | stopped

/-- The words for why a tab has to start over. -/
def reloadText : ReloadReason → String
  | .dead => "Dead"
  | .drift expected got =>
    "Drift \x7b expected: " ++ expected.tag ++ ", got: " ++ got.tag ++ " \x7d"
  | .unauthorized => "Unauthorized"

/-- Why watching ends with this news. -/
def News.complaint? : News → Option String
  | event (.reload r) => some ("local state is stale (" ++ reloadText r ++ "); restart to reload")
  | stopped => some "tab stopped"
  | board _ | event _ => none

/-- What is printed for this news. -/
def News.lines : News → List String
  | board b => boardLines b
  | event _ | stopped => []

/-- Watch the news in order: what is printed, and the complaint if they come to
a bad end. -/
def watched : List News → List String × Option String
  | [] => ([], none)
  | n :: rest =>
    match n.complaint? with
    | some c => ([], some c)
    | none => (n.lines ++ (watched rest).1, (watched rest).2)

end HuntBoard.CommandLine
