import FlowFence.Ruleset.Tool
import FlowFence.Settings.Basic

/-!
# Failures that end the daemon

A route that cannot be used is passed over and a query that fails is asked again. What is left ends
the daemon: unusable settings, a system error, a failed access to the filter at the start, and above
all a rule set that could not be put in place, since nobody knows then what the filter holds.
-/

namespace FlowFence

structure CommitError where
  chain : Chain
  rules : Nat
  cause : GatewayError
deriving DecidableEq, Inhabited

namespace CommitError

def message (e : CommitError) : String :=
  "failed to commit " ++ toString e.rules ++ " rules to " ++ e.chain.table ++ "/" ++ e.chain.name ++
    ": " ++ e.cause.message

/-- The texts of the errors below an error, outermost first. -/
def causes (e : CommitError) : List String :=
  e.cause.message :: e.cause.causes

end CommitError

inductive DaemonError where
  | settings (detail : String)
  | io (cause : IoError)
  | gateway (cause : GatewayError)
  | commit (cause : CommitError)
deriving DecidableEq, Inhabited

namespace DaemonError

def ofSettings : SettingsError → DaemonError
  | .unreadable cause => .io cause
  | e => .settings e.detail

def message : DaemonError → String
  | .settings detail => "Configuration error: " ++ detail
  | .io cause => "IO error: " ++ cause.message
  | .gateway cause => "Filter gateway error: " ++ cause.message
  | .commit cause => "Apply error: " ++ cause.message

def causes : DaemonError → List String
  | .settings _ => []
  | .io cause => [cause.message]
  | .gateway cause => cause.message :: cause.causes
  | .commit cause => cause.message :: cause.causes

end DaemonError

end FlowFence
