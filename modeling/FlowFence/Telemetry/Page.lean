import FlowFence.Binary64.Text
import FlowFence.Telemetry.Basic
import FlowFence.Text.Cut

/-!
# The telemetry page

The text form in which telemetry is collected: for each family of series a line of help, a line with
its kind, and a line for each series. Families are ordered by name and series by label; a family
that is told apart by labels and has no series yet is left out.
-/

namespace FlowFence

namespace Telemetry

inductive FamilyKind where
  | counter
  | gauge
  | histogram
deriving DecidableEq

def FamilyKind.name : FamilyKind → String
  | .counter => "counter"
  | .gauge => "gauge"
  | .histogram => "histogram"

/-- One line with a value: what follows the family's name, a label, and the value. -/
structure Sample where
  suffix : String
  label : Option (String × String)
  value : List Char

structure Family where
  name : String
  help : String
  kind : FamilyKind
  samples : List Sample

def labelChar (c : Char) : List Char :=
  match c with
  | '\\' => ['\\', '\\']
  | '"' => ['\\', '"']
  | '\n' => ['\\', 'n']
  | _ => [c]

def labelText : Option (String × String) → List Char
  | none => []
  | some (name, value) =>
      '{' :: name.toList ++ ['=', '"'] ++ value.toList.flatMap labelChar ++ ['"', '}']

def Sample.line (family : String) (sample : Sample) : List Char :=
  family.toList ++ sample.suffix.toList ++ labelText sample.label ++ ' ' :: sample.value

def Family.lines (family : Family) : List (List Char) :=
  ("# HELP " ++ family.name ++ " " ++ family.help).toList ::
    ("# TYPE " ++ family.name ++ " " ++ family.kind.name).toList ::
    family.samples.map (Sample.line family.name)

def histogramSamples (histogram : Histogram) : List Sample :=
  (histogram.cumulative.map fun (bound, count) =>
      ⟨"_bucket", some ("le", String.ofList bound.text), Text.decimal count⟩) ++
    [⟨"_bucket", some ("le", "+Inf"), Text.decimal histogram.total⟩,
      ⟨"_sum", none, histogram.sum.text⟩,
      ⟨"_count", none, Text.decimal histogram.total⟩]

/-- The sample of one stage of errors; a stage without errors has none. -/
def stageSamples (stage : String) (count : Nat) : List Sample :=
  if count = 0 then [] else [⟨"", some ("stage", stage), Text.decimal count⟩]

def counterSamples (telemetry : Telemetry) (value : CounterValue → Nat) : List Sample :=
  telemetry.counters.map fun counter =>
    ⟨"", some ("name", counter.name), (Binary64.ofNat (value counter)).text⟩

def allFamilies (telemetry : Telemetry) : List Family := [
  ⟨"bird_socket_query_duration_seconds", "Duration of BIRD control socket queries in seconds",
    .histogram, histogramSamples telemetry.queries⟩,
  ⟨"flowspec_route_errors_total", "Route blocks skipped, by the stage that rejected them",
    .counter,
    stageSamples "compile" telemetry.compileErrors ++ stageSamples "parse" telemetry.parseErrors⟩,
  ⟨"flowspec_routes_total", "Number of flowspec routes compiled in the last check", .gauge,
    [⟨"", none, (Binary64.ofNat telemetry.routes).text⟩]⟩,
  ⟨"nftables_counter_bytes", "Bytes seen by a named nftables counter", .gauge,
    counterSamples telemetry CounterValue.bytes⟩,
  ⟨"nftables_counter_packets", "Packets seen by a named nftables counter", .gauge,
    counterSamples telemetry CounterValue.packets⟩,
  ⟨"nftables_flush_duration_seconds", "Duration of nftables rule set commits in seconds",
    .histogram, histogramSamples telemetry.flushes⟩
]

/-- The families that have series, ordered by name. -/
def families (telemetry : Telemetry) : List Family :=
  telemetry.allFamilies.filter fun family => !family.samples.isEmpty

def lines (telemetry : Telemetry) : List (List Char) :=
  telemetry.families.flatMap Family.lines

def linesWith (telemetry : Telemetry) (lead : String) : List (List Char) :=
  telemetry.lines.filter fun line => (Text.after? lead.toList line).isSome

def page (telemetry : Telemetry) : List Char :=
  telemetry.lines.flatMap fun line => line ++ ['\n']

end Telemetry

end FlowFence
