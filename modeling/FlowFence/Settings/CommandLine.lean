import FlowFence.Duration.Spoken
import FlowFence.Settings.Basic

/-!
# The command line

Arguments are read from left to right. An option takes its value from behind an equals sign or from
the next argument, unless that looks like an option itself. A value is looked at when the argument
after it is reached, so an unknown argument right behind it is noticed first. Options that are not
given may come from the environment.
-/

namespace FlowFence

namespace CommandLine

/-- An option without a value. -/
inductive Switch where
  | debug
  | counters
  | help
  | version
deriving DecidableEq, Inhabited

/-- An option with a value. -/
inductive Setting where
  | routeSocket
  | telemetryEndpoint
  | interval
  | table
  | chain
  | file
deriving DecidableEq, Inhabited

inductive Stop where
  | help
  | version
  /-- No such option exists, and operands are not taken. -/
  | unknownArgument
  /-- A value is missing, empty, or not one of those possible. -/
  | invalidValue
  /-- A value is not of the form that the option asks for. -/
  | valueValidation
  /-- An option is given twice. -/
  | argumentConflict
  /-- A switch is given a value. -/
  | tooManyValues
deriving DecidableEq, Inhabited

namespace Stop

/-- The exit code: the two requests for information are no failures. -/
def exitCode : Stop → Nat
  | .help => 0
  | .version => 0
  | _ => 2

def name : Stop → String
  | .help => "DisplayHelp"
  | .version => "DisplayVersion"
  | .unknownArgument => "UnknownArgument"
  | .invalidValue => "InvalidValue"
  | .valueValidation => "ValueValidation"
  | .argumentConflict => "ArgumentConflict"
  | .tooManyValues => "TooManyValues"

end Stop

structure Options where
  debug : Bool
  routeSocket : Option String
  telemetryEndpoint : Option Endpoint
  interval : Option Duration
  counters : Option Bool
  table : Option String
  chain : Option String
  file : Option String
deriving Inhabited

def Options.bare : Options :=
  ⟨false, none, none, none, none, none, none, none⟩

def longName? (name : List Char) : Option (Switch ⊕ Setting) :=
  [("debug", .inl .debug), ("bird-socket", .inr .routeSocket),
    ("metrics.listen-address", .inr .telemetryEndpoint), ("interval", .inr .interval),
    ("enable-counter", .inl .counters), ("table", .inr .table), ("chain", .inr .chain),
    ("config", .inr .file), ("help", .inl .help), ("version", .inl .version)].lookup
    (String.ofList name)

def shortName? (letter : Char) : Option Switch :=
  [('d', Switch.debug), ('h', .help), ('V', .version)].lookup letter

def Options.has (options : Options) : Setting → Bool
  | .routeSocket => options.routeSocket.isSome
  | .telemetryEndpoint => options.telemetryEndpoint.isSome
  | .interval => options.interval.isSome
  | .table => options.table.isSome
  | .chain => options.chain.isSome
  | .file => options.file.isSome

def path? (value : String) : Except Stop String :=
  if value.isEmpty then .error .invalidValue else .ok value

def formed? {α : Type} (parse : List Char → Option α) (value : String) : Except Stop α :=
  match parse value.toList with
  | some result => .ok result
  | none => .error .valueValidation

def Options.set? (options : Options) (setting : Setting) (value : String) :
    Except Stop Options :=
  match setting with
  | .routeSocket => (path? value).map fun path => { options with routeSocket := some path }
  | .telemetryEndpoint =>
      (formed? Endpoint.parse? value).map fun e => { options with telemetryEndpoint := some e }
  | .interval =>
      (formed? Duration.parseSpoken? value).map fun d => { options with interval := some d }
  | .table => .ok { options with table := some value }
  | .chain => .ok { options with chain := some value }
  | .file => (path? value).map fun path => { options with file := some path }

def Options.give? (options : Options) (setting : Setting) (value : String) :
    Except Stop Options :=
  if options.has setting then .error .argumentConflict else options.set? setting value

def Options.turn? (options : Options) : Switch → Except Stop Options
  | .help => .error .help
  | .version => .error .version
  | .debug =>
      if options.debug then .error .argumentConflict else .ok { options with debug := true }
  | .counters =>
      if options.counters.isSome then .error .argumentConflict
      else .ok { options with counters := some true }

/-- The state of reading: an option that was named last may wait for its value or to be set. -/
structure Reading where
  options : Options
  waiting : Option (Setting × Option String)
  /-- Only operands follow. -/
  closed : Bool

/-- Set the option that waits. -/
def Reading.settle? (reading : Reading) : Except Stop Reading :=
  match reading.waiting with
  | none => .ok reading
  | some (_, none) => .error .invalidValue
  | some (setting, some value) =>
      (reading.options.give? setting value).map fun options =>
        { reading with options := options, waiting := none }

def Reading.turn? (reading : Reading) (switch : Switch) : Except Stop Reading := do
  let reading ← reading.settle?
  let options ← reading.options.turn? switch
  .ok { reading with options := options }

def Reading.long? (reading : Reading) (name : List Char) (value : Option String) :
    Except Stop Reading :=
  match longName? name, value with
  | none, _ => .error .unknownArgument
  | some (.inl _), some _ => .error .tooManyValues
  | some (.inl switch), none => reading.turn? switch
  | some (.inr setting), none => do
      let reading ← reading.settle?
      .ok { reading with waiting := some (setting, none) }
  | some (.inr setting), some value => do
      let reading ← reading.settle?
      let options ← reading.options.give? setting value
      .ok { reading with options := options }

def Reading.short? (reading : Reading) : List Char → Except Stop Reading
  | [] => .ok reading
  | letter :: letters =>
      match shortName? letter with
      | none => .error .unknownArgument
      | some switch =>
          match reading.turn? switch with
          | .error stop => .error stop
          | .ok reading => reading.short? letters

/-- Read an argument that is no option: the value of one that waits for it. -/
def Reading.plain? (reading : Reading) (value : String) : Except Stop Reading :=
  match reading.waiting with
  | some (setting, none) => .ok { reading with waiting := some (setting, some value) }
  | _ => .error .unknownArgument

def Reading.add? (reading : Reading) (argument : String) : Except Stop Reading :=
  if reading.closed then .error .unknownArgument
  else
    match argument.toList with
    | ['-', '-'] => .ok { reading with closed := true }
    | '-' :: '-' :: rest =>
        match rest.dropWhile (· ≠ '=') with
        | _ :: value => reading.long? (rest.takeWhile (· ≠ '=')) (some (String.ofList value))
        | [] => reading.long? rest none
    | '-' :: letter :: letters => reading.short? (letter :: letters)
    | _ => reading.plain? argument

def Reading.addAll? (reading : Reading) : List String → Except Stop Reading
  | [] => reading.settle?
  | argument :: arguments =>
      match reading.add? argument with
      | .error stop => .error stop
      | .ok reading => reading.addAll? arguments

/-! ## The environment -/

abbrev Environment := List (String × String)

/-- Take an option from a variable if it was not given. -/
def Options.inherit? (options : Options) (environment : Environment) (setting : Setting)
    (name : String) : Except Stop Options :=
  match options.has setting, environment.lookup name with
  | false, some value => options.set? setting value
  | _, _ => .ok options

def Options.inheritCounters? (options : Options) (environment : Environment) :
    Except Stop Options :=
  match options.counters, environment.lookup "ENABLE_COUNTER" with
  | none, some "true" => .ok { options with counters := some true }
  | none, some "false" => .ok { options with counters := some false }
  | none, some _ => .error .invalidValue
  | _, _ => .ok options

def Options.inheritAll? (options : Options) (environment : Environment) : Except Stop Options := do
  let options ← options.inherit? environment .routeSocket "BIRD_SOCKET_PATH"
  let options ← options.inherit? environment .interval "CHECK_INTERVAL"
  options.inheritCounters? environment

def parse? (arguments : List String) (environment : Environment) : Except Stop Options := do
  let reading ← Reading.addAll? ⟨.bare, none, false⟩ arguments
  reading.options.inheritAll? environment

end CommandLine

/-! ## Settings of all sources -/

namespace Settings

/-- Settings with the options of a command line above them; switches can only be turned on. -/
def override (settings : Settings) (options : CommandLine.Options) : Settings where
  debug := settings.debug || options.debug
  routeSocket := options.routeSocket.getD settings.routeSocket
  telemetryEndpoint := options.telemetryEndpoint.getD settings.telemetryEndpoint
  interval := options.interval.getD settings.interval
  counters := settings.counters || options.counters.getD false
  chain := ⟨options.table.getD settings.chain.table, options.chain.getD settings.chain.name⟩

end Settings

end FlowFence
