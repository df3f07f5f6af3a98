-- The program. It has no network of its own: whatever it sends stays without
-- a reply, so what needs the server ends as if it were down.
import HuntBoard.CommandLine.Run

namespace HuntBoard

open CommandLine

/-- What is at a path of the file system. -/
def placeAt (path : String) : IO FilePlace := do
  try
    let bytes ← IO.FS.readBinFile path
    return .file bytes.toList
  catch
    | .noFileOrDirectory .. => return .missing
    | .inappropriateType .. => return .directory
    | _ => return .underFile

/-- The directory of the mute preference. -/
def muteDirectory : IO String := do
  let home ← IO.getEnv "HOME"
  let config ← IO.getEnv "XDG_CONFIG_HOME"
  return config.getD (home.getD "" ++ "/.config") ++ "/huntboard"

/-- Keep the mute preference that a command leaves. -/
def saveMute (directory : String) : FilePlace → IO Unit
  | .file bytes => do
    IO.FS.createDirAll directory
    IO.FS.writeBinFile (directory ++ "/muted") ⟨bytes.toArray⟩
  | _ => return ()

/-- The configuration that words name, where they do. -/
def configOf (cookie : Option String) (words : List String) : IO FilePlace := do
  match Invocation.ofWords? cookie words with
  | .ok { config := some path, .. } => placeAt path
  | _ => return .missing

def usageText : String :=
  "usage: huntboard [--config FILE] [--api URL] [--stream URL] [--cookie COOKIE] COMMAND\n" ++
  "commands: watch, status, solve, add-puzzle, add-round, delete-puzzle, mute, help\n"

/-- Say how a command ended. -/
def report : Ending → IO Unit
  | .done => return ()
  | .help => do (← IO.getStdout).putStr usageText
  | .usage => do (← IO.getStderr).putStr usageText
  | .failed complaint => do (← IO.getStderr).putStr ("Error: " ++ complaint ++ "\n")

/-- Run the words of the command line, and give the exit code. -/
def runProgram (words : List String) : IO UInt32 := do
  let cookie ← IO.getEnv "HUNTBOARD_COOKIE"
  let directory ← muteDirectory
  let muteFile ← placeAt (directory ++ "/muted")
  let config ← configOf cookie words
  let outcome := run
    { file := fun _ => config, muteFile, cookie, transport := fun _ => none, news := fun _ _ => [] } words
  if outcome.muteFile ≠ muteFile then saveMute directory outcome.muteFile
  (← IO.getStdout).putStr (printed outcome.lines)
  report outcome.ending
  return UInt32.ofNat outcome.ending.code

end HuntBoard

def main (words : List String) : IO UInt32 := HuntBoard.runProgram words
