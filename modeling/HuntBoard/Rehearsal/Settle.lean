-- Letting a rehearsal run: until nothing more can happen at the present time,
-- and from one due time to the next when the clock moves.
import HuntBoard.Rehearsal.Stage

namespace HuntBoard.Rehearsal.Stage

/-! ## At the present time -/

/-- The hub takes all that waits for it. -/
def drainQueue (s : Stage) : Stage := s.queue.foldl hubTakes { s with queue := [] }

/-- The delay of the hub is over. -/
def ringRetry (s : Stage) : Stage :=
  if s.retryAt.any (· ≤ s.clock) then post { s with retryAt := none } .retryDue else s

/-- An attempt took too long. -/
def ringTimeout (s : Stage) : Stage :=
  match s.dialing with
  | some (a, at_) =>
    if at_ ≤ s.clock then post { s with dialing := none } (.link a (.ended .timedOut)) else s
  | none => s

/-- Whoever waits for a tab's end and sees it tells the hub. -/
def reportEnds (s : Stage) : Stage :=
  let (ended, waiting) := s.watches.partition fun w => s.leases.isOver w.2
  ended.foldl (fun s w => s.post (.tabGone w.1)) { s with watches := waiting }

/-- A tab that opens gets its answer. -/
def finishOpening (s : Stage) (o : Opening) : Stage :=
  match s.server.home with
  | .ok snapshot =>
    { s with
      guests := s.guests ++ [⟨o.label, o.id, o.inbox, o.lease, .ofSnapshot snapshot, true, true, [], none⟩]
      news.opened := s.news.opened ++ [(o.label, .ok ())] }
  | .error f =>
    clearMail
      { s with
        leases := s.leases.release o.lease
        news.opened := s.news.opened ++ [(o.label, .error (.server f))] }
      o.inbox

def finishOpenings (s : Stage) : Stage :=
  if s.server.gateClosed then s
  else s.openings.foldl finishOpening { s with openings := [] }

/-- Everything that can be told to the hub by now. -/
def gather (s : Stage) : Stage := s.finishOpenings.ringRetry.ringTimeout.reportEnds

/-- The hub takes what there is until nothing is left. An attempt to connect
takes a few rounds, so the attempts that are planned bound them. -/
def settleHub : Nat → Stage → Stage
  | 0, s => s
  | fuel + 1, s =>
    let s := s.gather
    if s.queue.isEmpty then s else settleHub fuel s.drainQueue

/-- A tab reads its messages, learns that the hub will not speak again, and
brings its board up to date. -/
def read (s : Stage) (g : Guest) : Stage :=
  if g.alive then
    let inputs := (s.mail g.inbox).map TabInput.message ++
      if g.tab.attached && !s.isServed g.inbox then [.hubLost] else []
    let (tab, effects) := g.tab.run inputs
    let tab := tab.refresh s.today
    effects.foldl (performFor g.id "")
      { s.clearMail g.inbox with
        guests := s.guests.map fun x => if x.id = g.id then { x with tab } else x }
  else s

/-- Let everything happen that can happen at the present time. -/
def settle (s : Stage) : Stage :=
  let s := settleHub (4 * s.server.receptions.length + 16) s
  s.guests.foldl read s

/-! ## Over time -/

/-- The next time that something of the hub's connection is due. -/
def nextDue (s : Stage) : Option Nat :=
  match s.retryAt, s.dialing with
  | some t, some (_, u) => some (min t u)
  | some t, none => some t
  | none, some (_, u) => some u
  | none, none => none

/-- The hub looks for news of activity as often as it does until a time. All
looks but the first find nothing, since nothing else happens meanwhile. -/
def flushUntil (s : Stage) (time : Nat) : Stage :=
  if s.hub.isSome && s.flushAt ≤ time then
    let period := s.config.flushInterval
    let s := settle (hubTakes { s with clock := s.flushAt } .flushDue)
    { s with flushAt := s.flushAt + ((time - s.flushAt) / period + 1) * period }
  else s

/-- Move the clock to a time, stopping at whatever is due on the way. Each stop
but the last few uses up an attempt that is planned. -/
def moveTo (time : Nat) : Nat → Stage → Stage
  | 0, s => { s with clock := time }
  | fuel + 1, s =>
    match s.nextDue.filter (· ≤ time) with
    | some due => moveTo time fuel (settle { s.flushUntil due with clock := due })
    | none => { s.flushUntil time with clock := time }

def advance (s : Stage) (ms : Nat) : Stage :=
  moveTo (s.clock + ms) (4 * s.server.receptions.length + 16) s

end HuntBoard.Rehearsal.Stage
