import FlowFence.Failure
import FlowFence.Log.Filter
import FlowFence.Settings.Load

/-!
# The start of the daemon

The daemon reads its settings, announces itself and makes sure that its table exists. Settings that
cannot be used are reported on standard error before anything else; a filter that cannot be reached
is reported in the log.
-/

namespace FlowFence

namespace Daemon

def name : String := "flowspecd"

def version : String := "0.1.0"

def logVariable : String := "RUST_LOG"

def versionText : String :=
  name ++ " " ++ version ++ "\n"

inductive Beginning where
  /-- It ends at once, with information or a complaint about the command line. -/
  | stop (reason : CommandLine.Stop)
  /-- Its settings cannot be used. -/
  | refused (cause : SettingsError)
  /-- It runs. -/
  | ready (settings : Settings) (filter : Log.Filter)

def begin? (arguments : List String) (environment : CommandLine.Environment)
    (read : Settings.FileReader) : Beginning :=
  match CommandLine.parse? arguments environment with
  | .error reason => .stop reason
  | .ok options =>
      match Settings.load? options read with
      | .error cause => .refused cause
      | .ok settings =>
          .ready settings (.choose (environment.lookup logVariable) settings.debug)

def failureCode : Nat := 1

/-- The line on standard error about settings that cannot be used. -/
def complaint (cause : SettingsError) : String :=
  name ++ ": " ++ (DaemonError.ofSettings cause).message ++ "\n"

/-! ## Events -/

def startedEvent : Log.Event :=
  ⟨.info, name, name ++ ": Starting", [("version", .quoted version)]⟩

def toolEvent (invocation : Tool.Invocation) (binary : String) : Log.Event :=
  ⟨.debug, name ++ "::nft", "Executing nft", [("command", .plain (invocation.command binary))]⟩

def failedEvent (cause : DaemonError) : Log.Event :=
  ⟨.error, name, name ++ ": Daemon exiting with error", [("error", .plain cause.message)]⟩

/-- The run of the tool that makes sure that the table of a chain exists. -/
def tableInvocation (chain : Chain) : Tool.Invocation :=
  Tool.apply [.addTable chain.table]

/-- The events up to the end of the first run of the tool, and the failure it ended with, if any. -/
def firstAccess (settings : Settings) (binary : String) (finish : Except IoError Tool.Finish) :
    List Log.Event × Option DaemonError :=
  let invocation := tableInvocation settings.chain
  let events := [startedEvent, toolEvent invocation binary]
  match invocation.output? binary finish with
  | .ok _ => (events, none)
  | .error cause =>
      let failure := DaemonError.gateway cause
      (events ++ [failedEvent failure], some failure)

end Daemon

end FlowFence
