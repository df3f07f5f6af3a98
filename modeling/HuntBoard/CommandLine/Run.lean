-- Running a command: from its words and what stands around it to what it
-- prints, how it ends, and what it leaves behind.
import HuntBoard.CommandLine.Command
import HuntBoard.CommandLine.Screen
import HuntBoard.Config.Reader
import HuntBoard.Mute
import HuntBoard.Server.Exchange

namespace HuntBoard.CommandLine

/-- What a command finds around it. -/
structure Surroundings where
  /-- What is at a path. -/
  file : String → FilePlace
  /-- The file of the mute preference. -/
  muteFile : FilePlace
  /-- The cookie that is set outside. -/
  cookie : Option String
  /-- The way to the server. -/
  transport : Transport
  /-- What a tab shows and tells that opens with a scope on a state, until
  watching it is interrupted. -/
  news : Option PuzzleId → Snapshot → List News

/-- How a command ends. -/
inductive Ending where
  | done
  /-- Help is shown instead of running a command. -/
  | help
  /-- The words make no command. -/
  | usage
  | failed (complaint : String)
  deriving DecidableEq

/-- The exit code. -/
def Ending.code : Ending → Nat
  | done | help => 0
  | failed _ => 1
  | usage => 2

def Ending.ofRefusal : Refusal → Ending
  | .help => help
  | .usage => usage

structure Outcome where
  lines : List String := []
  ending : Ending := .done
  /-- The file of the mute preference, as the command leaves it. -/
  muteFile : FilePlace

/-! ## The mute preference -/

def muteComplaint : String := "IO error on the mute preference"

/-- What an action makes of the preference. -/
def MuteAction.set? (m : Mute) (p : FilePlace) : Option MuteAction → Option (Mute × FilePlace)
  | none => some (m, p)
  | some on => m.set? p true
  | some off => m.set? p false
  | some toggle => m.toggle? p

def runMute (action : Option MuteAction) (p : FilePlace) : Outcome :=
  match (Mute.open? p).bind fun m => MuteAction.set? m p action with
  | some (m, p) => { lines := [Mute.word m.muted], muteFile := p }
  | none => { ending := .failed muteComplaint, muteFile := p }

/-! ## Configuration -/

/-- The configuration of an invocation: that of its file, or the usual one, with
what the invocation itself gives. Fails with a complaint. -/
def Invocation.configuration (i : Invocation) (file : String → FilePlace) :
    Except String SessionConfig := do
  let c : SessionConfig ← match i.config with
    | none => .ok {}
    | some path =>
      match ((file path).read?.join).bind SessionConfig.ofText? with
      | some c => .ok c
      | none => .error ("loading config from " ++ path)
  return { c with
    serverBase := i.serverBase.getD c.serverBase
    cookie := i.cookie.or c.cookie
    hub := { c.hub with streamUrl := i.streamUrl.getD c.hub.streamUrl } }

/-- The server of a configuration. Both addresses have to be good. -/
def serverOf (c : SessionConfig) : Except String Server :=
  match Url.ofText? c.hub.streamUrl, Server.at? c.serverBase c.cookie with
  | none, _ => .error ("stream url " ++ c.hub.streamUrl)
  | _, .error _ => .error ("api base " ++ c.serverBase)
  | _, .ok s => .ok s

/-! ## Commands -/

/-- The request that a command makes; to watch, none is made. -/
def Command.request? : Command → Option WriteRequest
  | .status puzzle s => some (.updatePuzzle puzzle (.ofStatus s))
  | .solve puzzle answer => some (.updatePuzzle puzzle (.ofAnswer answer))
  | .addPuzzle puzzle => some (.createPuzzle puzzle)
  | .addRound round => some (.createRound round)
  | .deletePuzzle puzzle => some (.deletePuzzle puzzle)
  | .watch _ | .mute _ => none

/-- The puzzle whose presence a command wants to hear of. -/
def Command.scope : Command → Option PuzzleId
  | .watch puzzle => puzzle
  | _ => none

/-- What is said about a fault of the server, as far as this library knows it. -/
def faultText (f : ServerFault) : String :=
  f.message?.getD <| match f with
    | .network => "network error"
    | .badBody => "invalid response"
    | _ => "invalid API URL"

/-- Write, and say under which change. -/
def runWrite (s : Server) (t : Transport) (r : WriteRequest) : List String × Ending :=
  match s.write t r with
  | .ok reply => (["ok @" ++ reply.changeId.text], .done)
  | .error f => ([], .failed (faultText f))

/-- Watch until the news end. -/
def runWatch (news : List News) : List String × Ending :=
  match watched news with
  | (lines, none) => (lines, .done)
  | (lines, some c) => (lines, .failed c)

/-- Run a command that needs the server: first the state of the hunt has to be had. -/
def runOnline (i : Invocation) (around : Surroundings) : List String × Ending :=
  match i.configuration around.file |>.bind serverOf with
  | .error c => ([], .failed c)
  | .ok s =>
    match s.home around.transport with
    | .error _ => ([], .failed "loading snapshot")
    | .ok snapshot =>
      match i.command.request? with
      | some r => runWrite s around.transport r
      | none => runWatch (around.news i.command.scope snapshot)

/-- Run the words of a command line. -/
def run (around : Surroundings) (words : List String) : Outcome :=
  match Invocation.ofWords? around.cookie words with
  | .error r => { ending := .ofRefusal r, muteFile := around.muteFile }
  | .ok i =>
    match i.command with
    | .mute action => runMute action around.muteFile
    | _ =>
      let (lines, ending) := runOnline i around
      { lines, ending, muteFile := around.muteFile }

end HuntBoard.CommandLine
