-- What can be configured, and the values where nothing is.
import HuntBoard.Dialer
import HuntBoard.Recent

namespace HuntBoard

/-- How the hub reaches the stream and serves the tabs; times are in milliseconds. -/
structure HubConfig where
  streamUrl : String := "ws://localhost:9090/rx"
  recentCapacity : Nat := Recent.usualCapacity
  backoffFloor : Nat := 500
  backoffCeiling : Nat := 4000
  connectTimeout : Nat := 10000
  flushPeriod : Nat := 5000
  deriving DecidableEq

namespace HubConfig

instance : Inhabited HubConfig := ⟨{}⟩

def backoff (c : HubConfig) : Backoff := .between c.backoffFloor c.backoffCeiling

/-- The time between two looks for news of activity; never zero. -/
def flushInterval (c : HubConfig) : Nat := max c.flushPeriod 1

end HubConfig

structure SessionConfig where
  /-- The address that the paths of requests are added to. -/
  serverBase : String := "http://localhost:8080/api"
  cookie : Option String := none
  requestTimeout : Nat := 15000
  hub : HubConfig := {}
  deriving DecidableEq

instance : Inhabited SessionConfig := ⟨{}⟩

end HuntBoard
