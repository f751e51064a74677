import FlowFence.Daemon.Start

/-!
# The program

Reads the settings, announces itself and goes on to the first access to the filter. What is decided
on the way is decided by `Daemon.begin?` and `Daemon.firstAccess`; this module only fetches the
environment and the settings file and writes what they say. The filter tool itself is not run from
here, so the first access ends as it does where the tool is not installed.
-/

namespace FlowFence

namespace Launch

def environmentNames : List String :=
  ["BIRD_SOCKET_PATH", "CHECK_INTERVAL", "ENABLE_COUNTER", Daemon.logVariable]

def readEnvironment : IO CommandLine.Environment := do
  let values ← environmentNames.mapM fun name => do
    return (← IO.getEnv name).map fun value => (name, value)
  return values.filterMap id

def ioErrorOf : IO.Error → IoError
  | .noFileOrDirectory _ number _ => .system number.toNat
  | .permissionDenied _ number _ => .system number.toNat
  | .inappropriateType _ number _ => .system number.toNat
  | .invalidArgument _ number _ => .system number.toNat
  | e => .data (toString e)

/-- The content of the file that the arguments name, if they name one. -/
def readFile (path : Option String) : IO (Except IoError (List UInt8)) := do
  match path with
  | none => return .error .notFound
  | some path =>
      try
        return .ok (← IO.FS.readBinFile path).toList
      catch e => return .error (ioErrorOf e)

def writeEvent (event : Log.Event) : IO Unit :=
  IO.println (event.level.name ++ " " ++ event.target ++ ": " ++ event.text)

def stop (reason : CommandLine.Stop) : IO UInt32 := do
  match reason with
  | .version => IO.print Daemon.versionText
  | .help => IO.println ("Usage: " ++ Daemon.name ++ " [OPTIONS]")
  | _ => IO.eprintln ("error: " ++ reason.name)
  return UInt32.ofNat reason.exitCode

def start (settings : Settings) (filter : Log.Filter) : IO UInt32 := do
  let (events, failure) :=
    Daemon.firstAccess settings Tool.defaultBinary (.error .notFound)
  (filter.apply events).forM writeEvent
  return if failure.isSome then UInt32.ofNat Daemon.failureCode else 0

def runWith (arguments : List String) : IO UInt32 := do
  let environment ← readEnvironment
  let path := match CommandLine.parse? arguments environment with
    | .ok options => options.file
    | .error _ => none
  let content ← readFile path
  match Daemon.begin? arguments environment fun _ => content with
  | .stop reason => stop reason
  | .refused cause => do
      IO.eprint (Daemon.complaint cause)
      return UInt32.ofNat Daemon.failureCode
  | .ready settings filter => start settings filter

end Launch

end FlowFence

def main (arguments : List String) : IO UInt32 :=
  FlowFence.Launch.runWith arguments
