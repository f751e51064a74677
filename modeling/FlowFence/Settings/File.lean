import FlowFence.Duration.Spoken
import FlowFence.Settings.Basic
import FlowFence.Text.Utf8
import FlowFence.Toml.Reader

/-!
# Settings in a file

The file is a TOML document whose members are the settings. What it does not name keeps its standard
value; members with other names are passed over.
-/

namespace FlowFence

namespace Settings

/-- What a member of a document denotes; the standard value if it is missing. -/
def fileValue? {α : Type} (members : Toml.Members) (name : String) (standard : α)
    (decode : Toml → Option α) : Option α :=
  match members.lookup name with
  | some value => decode value
  | none => some standard

def flagOf? : Toml → Option Bool
  | .boolean value => some value
  | _ => none

def stringOf? : Toml → Option String
  | .string value => some value
  | _ => none

def endpointOf? (value : Toml) : Option Endpoint :=
  (stringOf? value).bind fun written => Endpoint.parse? written.toList

def durationOf? (value : Toml) : Option Duration :=
  (stringOf? value).bind fun written => Duration.parseSpoken? written.toList

def ofMembers? (members : Toml.Members) : Option Settings := do
  let table ← fileValue? members "table" standard.chain.table stringOf?
  let name ← fileValue? members "chain" standard.chain.name stringOf?
  some {
    debug := ← fileValue? members "debug" standard.debug flagOf?
    routeSocket := ← fileValue? members "bird_socket" standard.routeSocket stringOf?
    telemetryEndpoint :=
      ← fileValue? members "metrics_listen_address" standard.telemetryEndpoint endpointOf?
    interval := ← fileValue? members "interval" standard.interval durationOf?
    counters := ← fileValue? members "enable_counter" standard.counters flagOf?
    chain := ⟨table, name⟩ }

def notTextMessage : String := "stream did not contain valid UTF-8"

def ofFile? (path : String) (content : Except IoError (List UInt8)) :
    Except SettingsError Settings :=
  match content with
  | .error cause => .error (.unreadable cause)
  | .ok bytes =>
      match Utf8.decode bytes with
      | .error _ => .error (.unreadable (.data notTextMessage))
      | .ok written =>
          match (Toml.parse? written).bind ofMembers? with
          | some settings => .ok settings
          | none => .error (.malformed path)

end Settings

end FlowFence
