import FlowFence.Duration.Basic
import FlowFence.Endpoint
import FlowFence.Ruleset.Chain
import FlowFence.SystemError
import FlowFence.Text.Blank

/-!
# Settings

What the daemon can be told: where the routing daemon listens, where telemetry is served, how often
routes are checked, which chain is kept, whether traffic is counted and how much is logged.
-/

namespace FlowFence

structure Settings where
  debug : Bool
  routeSocket : String
  telemetryEndpoint : Endpoint
  interval : Duration
  counters : Bool
  chain : Chain
deriving DecidableEq, Inhabited

inductive SettingsError where
  /-- The file could not be read. -/
  | unreadable (cause : IoError)
  /-- The file at a path is no document with settings of the right types. -/
  | malformed (path : String)
  | zeroInterval
  | emptyTable
  | emptyChain
deriving DecidableEq, Inhabited

namespace SettingsError

def malformedText : String := "Failed to parse config file"

/-- What an error says about the settings; errors of the system speak for themselves. -/
def detail : SettingsError → String
  | .unreadable cause => cause.message
  | .malformed path => malformedText ++ " " ++ path
  | .zeroInterval => "interval must be greater than zero"
  | .emptyTable => "table name must not be empty"
  | .emptyChain => "chain name must not be empty"

end SettingsError

namespace Settings

def defaultRouteSocket : String := "/run/bird/bird.ctl"

def defaultTelemetryEndpoint : Endpoint :=
  ⟨.v4 (BitVec.ofNat 32 (127 * 2 ^ 24 + 1)), 0, 9302⟩

def standard : Settings where
  debug := false
  routeSocket := defaultRouteSocket
  telemetryEndpoint := defaultTelemetryEndpoint
  interval := .ofSeconds 10
  counters := false
  chain := ⟨"filter", "flowspec"⟩

def isBlankName (name : String) : Bool :=
  name.toList.all Text.isBlank

def fault? (settings : Settings) : Option SettingsError :=
  if settings.interval.nanoseconds = 0 then some .zeroInterval
  else if isBlankName settings.chain.table then some .emptyTable
  else if isBlankName settings.chain.name then some .emptyChain
  else none

end Settings

end FlowFence
