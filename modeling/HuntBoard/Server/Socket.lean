-- The stream over a web socket: where it is, what is sent on it, and how the
-- messages of the socket become the frames that the hub sees.
import HuntBoard.Activity
import HuntBoard.Dialer
import HuntBoard.LiveMessage
import HuntBoard.Url.Query

namespace HuntBoard

/-- The address of the stream, with the events after a change. -/
def streamUrl (endpoint : Url) : Option ChangeId → Url
  | some after => endpoint.addField "after" after.text
  | none => endpoint

namespace ActivitySummary

def toJson (a : ActivitySummary) : Json :=
  .obj [("event", .str "activity"), ("activity", .obj (a.toList.map fun (p, b) => (p.text, .bool b)))]

/-- The text frame of a summary; puzzles stand in the order of their ids. -/
def frame (a : ActivitySummary) : String := (toJson a).text

end ActivitySummary

/-! ## The pump -/

inductive SocketMessage where
  | text (s : String)
  /-- Bytes, or a sign of life. -/
  | other
  /-- The server closes, perhaps with a code and a reason. -/
  | closed (frame : Option (Nat × String))
  | failed (message : String)
  /-- The connection is gone without a word. -/
  | ended
  deriving DecidableEq

inductive PumpInput where
  | received (m : SocketMessage)
  /-- The hub wants a summary sent. -/
  | send (a : ActivitySummary)
  /-- What was to be sent could not be. -/
  | sendFailed (message : String)
  /-- The hub has let go of the connection. -/
  | released
  /-- The hub takes no more messages. -/
  | unheard
  deriving DecidableEq

inductive PumpEffect where
  /-- Hand a message to the hub. -/
  | deliver (m : LiveMessage)
  /-- Tell the hub that the connection is over. -/
  | finished (f : Failure)
  | sendText (s : String)
  | closeSocket
  deriving DecidableEq

/-- A pump runs until the connection is over. -/
structure Pump where
  running : Bool := true
  /-- The hub takes messages. -/
  heard : Bool := true
  deriving DecidableEq

namespace Pump

/-- The code for a close that names none. -/
def noCode : Nat := 1005

def failureOf : Option (Nat × String) → Failure
  | some (code, reason) => .closed code reason
  | none => .closed noCode ""

/-- The connection failed, and the hub is told. -/
def fail (p : Pump) (f : Failure) : Pump × List PumpEffect :=
  ({ p with running := false }, [.finished f])

/-- The hub needs the connection no more. -/
def close (p : Pump) : Pump × List PumpEffect := ({ p with running := false }, [.closeSocket])

/-- Take a message of the socket. Text that is no message is dropped. -/
def receive (p : Pump) : SocketMessage → Pump × List PumpEffect
  | .text s =>
    match LiveMessage.decode s with
    | .ok m => if p.heard then (p, [.deliver m]) else p.close
    | .error _ => (p, [])
  | .other => (p, [])
  | .closed frame => p.fail (failureOf frame)
  | .failed message => p.fail (.error message)
  | .ended => p.fail (.error "stream ended")

def step (p : Pump) (i : PumpInput) : Pump × List PumpEffect :=
  if p.running then
    match i with
    | .received m => p.receive m
    | .send a => (p, [.sendText a.frame])
    | .sendFailed message => p.fail (.error message)
    | .released => p.close
    | .unheard => ({ p with heard := false }, [])
  else (p, [])

/-- Take inputs in order. -/
def run (p : Pump) : List PumpInput → Pump × List PumpEffect
  | [] => (p, [])
  | i :: rest =>
    let (p, done) := p.step i
    let (p, more) := p.run rest
    (p, done ++ more)

end Pump

end HuntBoard
