-- What a tab shows: the rounds in order, the puzzles of each in order, and how
-- far they are.
import HuntBoard.Replica
import HuntBoard.Text.Lower

namespace HuntBoard

/-! ## Names -/

/-- One character of an anchor at a time: letters and digits stay, and every
run of others is one dash. `inRun` tells that such a run has begun. -/
def dashed (inRun : Bool) : List Char → List Char
  | [] => []
  | c :: rest =>
    if c.isAlphanum then c :: dashed false rest
    else if inRun then dashed true rest
    else '-' :: dashed true rest

/-- The part of an address that leads to a round, from its name. -/
def anchor (name : String) : String :=
  String.ofList (dashed false (Text.lower (Text.trim name)).toList)

/-- The mark that asks for the coloured form of the character before it. -/
def emojiMark : Char := Char.ofNat 0xFE0F

/-- The emoji of a round and its name. -/
def Round.displayName (r : Round) : String :=
  r.emoji ++ String.ofList [emojiMark, ' '] ++ r.name

/-! ## Order -/

/-- False comes before true. -/
def orderBool : Bool → Bool → Ordering
  | false, true => .lt
  | true, false => .gt
  | _, _ => .eq

/-- Instants in the order they pass. -/
def orderInstant (a b : Instant) : Ordering :=
  if a.before b then .lt else if b.before a then .gt else .eq

/-- Special rounds, then by the sort number, then by id. -/
def Round.order (a b : Round) : Ordering :=
  (orderBool b.special a.special).then ((compare a.sort b.sort).then (compare a.id b.id))

/-- Puzzles whose reminder is due stand first, those without one next, and
those to be reminded of later last. -/
def Puzzle.group (now : Instant) (p : Puzzle) : Nat :=
  match p.reminder with
  | some t => if t.notAfter now then 0 else 2
  | none => 1

/-- Within a group: by reminder, or without one by name in lower case. -/
def Puzzle.orderInGroup (a b : Puzzle) : Ordering :=
  match a.reminder, b.reminder with
  | some s, some t => orderInstant s t
  | _, _ => compare (Text.lower a.name) (Text.lower b.name)

/-- Metas stand behind all others; ids decide between puzzles that are alike. -/
def Puzzle.order (now : Instant) (a b : Puzzle) : Ordering :=
  (orderBool a.isMeta b.isMeta).then
    ((compare (a.group now) (b.group now)).then ((a.orderInGroup b).then (compare a.id b.id)))

/-! ## The board -/

/-- A round with its puzzles. -/
structure RoundBoard where
  round : Round
  puzzles : List Puzzle
  deriving DecidableEq

namespace RoundBoard

def anchor (b : RoundBoard) : String := HuntBoard.anchor b.round.name

def displayName (b : RoundBoard) : String := b.round.displayName

def total (b : RoundBoard) : Nat := b.puzzles.length

def solved (b : RoundBoard) : Nat := b.puzzles.countP Puzzle.isSolved

/-- The puzzles that a round needs: its metas, or all of them if it has none. -/
def needed (b : RoundBoard) : List Puzzle :=
  if b.puzzles.any Puzzle.isMeta then b.puzzles.filter Puzzle.isMeta else b.puzzles

/-- A round is complete when it has puzzles and those it needs are solved. -/
def complete (b : RoundBoard) : Bool := !b.puzzles.isEmpty && b.needed.all Puzzle.isSolved

end RoundBoard

structure Board where
  rounds : List RoundBoard := []
  /-- All puzzles there are, also those of rounds that are not known. -/
  puzzleCount : Nat := 0
  solvedCount : Nat := 0
  deriving DecidableEq

namespace Board

instance : Inhabited Board := ⟨{}⟩

/-- A test for lists to be sorted by. -/
def inOrder {α : Type} (order : α → α → Ordering) (a b : α) : Bool := order a b != .gt

/-- Groups of puzzles by their rounds, with one puzzle more at the end of its group. -/
def join (groups : KeyedMap RoundId (List Puzzle)) (p : Puzzle) : KeyedMap RoundId (List Puzzle) :=
  groups.insert p.round ((groups.get? p.round).getD [] ++ [p])

/-- A round with the puzzles of its group, in order. -/
def roundBoard (now : Instant) (r : Round) (own : List Puzzle) : RoundBoard :=
  ⟨r, own.mergeSort (inOrder (Puzzle.order now))⟩

/-- Each round takes its group away, and has no puzzles where none is left. -/
def deal (now : Instant) : KeyedMap RoundId (List Puzzle) → List Round → List RoundBoard
  | _, [] => []
  | groups, r :: rest =>
    roundBoard now r ((groups.get? r.id).getD []) :: deal now (groups.erase r.id) rest

/-- The board of a state at an instant. -/
def ofEntities (s : Entities) (now : Instant) : Board where
  rounds := (deal now (s.puzzles.values.foldl join .empty) s.rounds.values).mergeSort
    (inOrder fun a b => a.round.order b.round)
  puzzleCount := s.puzzles.size
  solvedCount := s.puzzles.values.countP Puzzle.isSolved

def puzzle? (b : Board) (id : PuzzleId) : Option Puzzle :=
  (b.rounds.flatMap (·.puzzles)).find? fun p => p.id = id

def round? (b : Board) (id : RoundId) : Option RoundBoard := b.rounds.find? fun r => r.round.id = id

end Board

end HuntBoard
