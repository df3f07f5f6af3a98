-- The commands, what each may be given, and the reading of words as a command.
import HuntBoard.CommandLine.Arguments
import HuntBoard.Puzzle.Basic
import HuntBoard.Round
import HuntBoard.Text.Digits

namespace HuntBoard.CommandLine

/-! ## Commands -/

inductive MuteAction where
  | on
  | off
  | toggle
  deriving DecidableEq

def MuteAction.ofWord? : String → Option MuteAction
  | "on" => some on
  | "off" => some off
  | "toggle" => some toggle
  | _ => none

inductive Command where
  /-- Show the board whenever it changes, with who is on one puzzle or on all. -/
  | watch (puzzle : Option PuzzleId)
  | status (puzzle : PuzzleId) (status : Status)
  | solve (puzzle : PuzzleId) (answer : String)
  | addPuzzle (puzzle : NewPuzzle)
  | addRound (round : NewRound)
  | deletePuzzle (puzzle : PuzzleId)
  /-- Show or change the mute preference. -/
  | mute (action : Option MuteAction)
  deriving DecidableEq

/-- A command, and what is given to go before the configuration. -/
structure Invocation where
  /-- The file of the configuration. -/
  config : Option String
  serverBase : Option String
  streamUrl : Option String
  cookie : Option String
  command : Command
  deriving DecidableEq

/-! ## Values -/

/-- A whole number of 64 bits, perhaps with a sign. -/
def number? (s : String) : Option Int64 :=
  let n? : Option Int := match s.toList with
    | '+' :: l => (Text.decimal? l).map Int.ofNat
    | '-' :: l => (Text.decimal? l).map fun n => -(n : Int)
    | l => (Text.decimal? l).map Int.ofNat
  n?.bind int64?

def puzzleId? (s : String) : Option PuzzleId := (number? s).map PuzzleId.mk

def roundId? (s : String) : Option RoundId := (number? s).map RoundId.mk

namespace Parameter

def text (name : String) : Parameter := { name }

def number (name : String) : Parameter := { name, accepts := fun s => (number? s).isSome }

def path (name : String) : Parameter := { name, accepts := fun s => !s.isEmpty }

def flag (name : String) : Parameter := { name, isFlag := true }

end Parameter

/-- A value that has to be given. -/
def Reading.need {α : Type} (r : Reading) (name : String) (read : String → Option α) :
    Except Refusal α :=
  match (r.value? name).bind read with
  | some a => .ok a
  | none => .error .usage

/-- A value that may be left out. -/
def Reading.orElse {α : Type} (r : Reading) (name : String) (usual : α) (read : String → Option α) :
    Except Refusal α :=
  match r.value? name with
  | some s => ((read s).map Except.ok).getD (.error .usage)
  | none => .ok usual

/-! ## Kinds of commands -/

/-- A kind of command: its name, what it may be given, and how that makes a command. -/
structure Kind where
  name : String
  shape : Shape
  read : Reading → Except Refusal Command

namespace Kind

def watch : Kind where
  name := "watch"
  shape := { options := [.number "puzzle"] }
  read r := return .watch (← r.orElse "puzzle" none fun s => (puzzleId? s).map some)

def status : Kind where
  name := "status"
  shape := { places := [.number "puzzle",
    { name := "status", accepts := fun s => (Status.ofWord? s).isSome }] }
  read r := return .status (← r.need "puzzle" puzzleId?) (← r.need "status" Status.ofWord?)

def solve : Kind where
  name := "solve"
  shape := { places := [.number "puzzle", .text "answer"] }
  read r := return .solve (← r.need "puzzle" puzzleId?) (← r.need "answer" some)

def addPuzzle : Kind where
  name := "add-puzzle"
  shape := { options := [.number "round", .text "name", .text "url"] }
  read r := return .addPuzzle {
    name := ← r.need "name" some
    round := ← r.need "round" roundId?
    puzzleUrl := ← r.orElse "url" "" some }

def addRound : Kind where
  name := "add-round"
  shape := { options := [.text "name", .text "emoji", .number "hue", .number "sort", .flag "special"] }
  read r := return .addRound {
    name := ← r.need "name" some
    emoji := ← r.need "emoji" some
    hue := ← r.orElse "hue" 0 number?
    sort := ← r.orElse "sort" 0 number?
    special := (r.value? "special").isSome }

def deletePuzzle : Kind where
  name := "delete-puzzle"
  shape := { places := [.number "puzzle"] }
  read r := return .deletePuzzle (← r.need "puzzle" puzzleId?)

def mute : Kind where
  name := "mute"
  shape := { places := [{ name := "action", accepts := fun s => (MuteAction.ofWord? s).isSome }] }
  read r := return .mute (← r.orElse "action" none fun s => (MuteAction.ofWord? s).map some)

def all : List Kind := [watch, status, solve, addPuzzle, addRound, deletePuzzle, mute]

def ofName? (name : String) : Option Kind := all.find? (·.name = name)

end Kind

/-! ## Invocations -/

/-- The word that asks for help about a command. -/
def helpWord : String := "help"

/-- The options that may stand before a command and behind it. -/
def commonOptions : List Parameter := [.path "config", .text "api", .text "stream", .text "cookie"]

def isCommand (word : String) : Bool := word = helpWord || (Kind.ofName? word).isSome

/-- What comes of asking for help: no more than one command can be asked about. -/
def helpAbout : List String → Refusal
  | [] => .help
  | [word] => if isCommand word then .help else .usage
  | _ => .usage

/-- Read words as a command. What stands behind the command goes before what
stands in front of it, and both go before the cookie that is set outside. -/
def Invocation.ofWords? (cookie : Option String) (words : List String) : Except Refusal Invocation := do
  let (before, rest) ← (Reading.ofShape { options := commonOptions }).takeAll isCommand words
  match rest with
  | [] => .error .usage
  | word :: rest =>
    match Kind.ofName? word with
    | none => .error (helpAbout rest)
    | some kind =>
      let shape := { kind.shape with options := kind.shape.options ++ commonOptions }
      let (behind, _) ← (Reading.ofShape shape).takeAll (fun _ => false) rest
      let behind ← behind.settle
      let command ← kind.read behind
      let before ← before.settle
      let common (name : String) : Option String := (behind.value? name).or (before.value? name)
      return {
        config := common "config"
        serverBase := common "api"
        streamUrl := common "stream"
        cookie := (common "cookie").or cookie
        command }

end HuntBoard.CommandLine
