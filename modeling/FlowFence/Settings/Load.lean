import FlowFence.Settings.CommandLine
import FlowFence.Settings.File

/-!
# Settings from all sources

Standard values come first, then the file, then the environment and the command line. What results
is checked last, so a later source can mend what an earlier one got wrong.
-/

namespace FlowFence

namespace Settings

abbrev FileReader := String → Except IoError (List UInt8)

/-- The settings below the options: those of the file that is named, or the standard ones. -/
def base? (options : CommandLine.Options) (read : FileReader) : Except SettingsError Settings :=
  match options.file with
  | some path => ofFile? path (read path)
  | none => .ok standard

def load? (options : CommandLine.Options) (read : FileReader) : Except SettingsError Settings :=
  match base? options read with
  | .error e => .error e
  | .ok settings =>
      let settings := settings.override options
      match settings.fault? with
      | some e => .error e
      | none => .ok settings

end Settings

end FlowFence
