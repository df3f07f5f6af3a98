-- When to connect to the server's stream, and how long to wait after a
-- failure. Nothing here knows sockets or clocks: it is told how each attempt
-- went, and answers what to do next.
import HuntBoard.Channel

namespace HuntBoard

/-! ## Waiting -/

/-- A delay in milliseconds that doubles from a floor up to a ceiling. -/
structure Backoff where
  floor : Nat
  ceiling : Nat
  current : Nat
  deriving DecidableEq

namespace Backoff

/-- A delay at its floor; a ceiling below the floor is raised to it. -/
def between (floor ceiling : Nat) : Backoff := ⟨floor, max ceiling floor, floor⟩

instance : Inhabited Backoff := ⟨between 500 4000⟩

/-- The delay after this one. -/
def grow (b : Backoff) : Backoff := { b with current := min (2 * b.current) b.ceiling }

def reset (b : Backoff) : Backoff := { b with current := b.floor }

/-- The delays that `count` failures in a row wait for. -/
def delays : Nat → Backoff → List Nat
  | 0, _ => []
  | count + 1, b => b.current :: delays count b.grow

end Backoff

/-! ## Attempts -/

/-- Attempts to connect are numbered from one, without a bound. A counter of 64 bits gives the same
numbers as long as fewer than 2^64 attempts are begun: the law of the dialer on its own says so, and
the laws of a hub take it for granted. -/
abbrev Attempt := Nat

/-- Where the connection stands. -/
inductive Phase where
  | idle
  | connecting (a : Attempt)
  | connected (a : Attempt)
  | dead
  deriving DecidableEq

namespace Phase

/-- The attempt that the connection hangs on. -/
def attempt? : Phase → Option Attempt
  | connecting a | connected a => some a
  | _ => none

def linkState : Phase → LinkState
  | idle | connecting _ => .disconnected
  | connected _ => .connected
  | dead => .dead

/-- The phase in words. -/
def text : Phase → String
  | idle => "idle"
  | connecting a => "connecting attempt-" ++ toString a
  | connected a => "connected attempt-" ++ toString a
  | dead => "dead"

end Phase

/-- Why an attempt, or the connection it made, came to its end. -/
inductive Failure where
  /-- The server closed the connection. -/
  | closed (code : Nat) (reason : String)
  /-- The transport failed. -/
  | error (message : String)
  /-- The attempt took too long. -/
  | timedOut
  deriving DecidableEq

/-- The close code by which the server says that the events after the point of
resumption are gone. -/
def replayGoneCode : Nat := 4004

/-- What to do after a failure. -/
inductive Retry where
  | now
  | after (delay : Nat)
  | never
  deriving DecidableEq

/-! ## The dialer -/

structure Dialer where
  phase : Phase := .idle
  backoff : Backoff := default
  nextAttempt : Attempt := 1
  deriving DecidableEq

namespace Dialer

def ofBackoff (b : Backoff) : Dialer := { backoff := b }

def linkState (d : Dialer) : LinkState := d.phase.linkState

def isDead (d : Dialer) : Bool := d.phase == .dead

/-- Start an attempt, in place of any before it; none once the stream is dead. -/
def begin (d : Dialer) : Dialer × Option Attempt :=
  if d.isDead then (d, none)
  else
    ({ d with phase := .connecting d.nextAttempt, nextAttempt := d.nextAttempt + 1 },
      some d.nextAttempt)

/-- An attempt has its connection. Only the attempt in progress counts. -/
def opened (d : Dialer) (a : Attempt) : Dialer × Bool :=
  if d.phase = .connecting a then
    ({ d with phase := .connected a, backoff := d.backoff.reset }, true)
  else (d, false)

/-- An attempt or its connection ended. Only the current one counts: the stream
is dead when its events are gone, a timeout has waited long enough, and all
else waits for the delay. -/
def failed (d : Dialer) (a : Attempt) (f : Failure) : Dialer × Option Retry :=
  if d.phase.attempt? = some a then
    match f with
    | .closed code _ =>
      if code = replayGoneCode then ({ d with phase := .dead }, some .never)
      else ({ d with phase := .idle, backoff := d.backoff.grow }, some (.after d.backoff.current))
    | .error _ => ({ d with phase := .idle, backoff := d.backoff.grow }, some (.after d.backoff.current))
    | .timedOut => ({ d with phase := .idle, backoff := d.backoff.grow }, some .now)
  else (d, none)

end Dialer

end HuntBoard
