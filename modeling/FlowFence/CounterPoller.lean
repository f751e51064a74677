import FlowFence.Program.NamedCounter
import FlowFence.Ruleset.Tool
import FlowFence.Telemetry.Basic
import FlowFence.Ticker

/-!
# The counter poller

The named counters of the filter are read from time to time and exported with the telemetry. A poll
that fails changes nothing. Each poll is due an interval after the one before was due, however late
that one started; so polls that are late follow one another until they have caught up.
-/

namespace FlowFence

namespace CounterPoller

/-- The request that creates the counters that are exported, before rules refer to them. -/
def provision (table : String) : Tool.Request :=
  .addCounters table NamedCounter.all

/-- The counter of an object, if it is one that the daemon keeps. -/
def exported? : NamedObject → Option CounterValue
  | .counter name packets bytes =>
      if name ∈ NamedCounter.all then some ⟨name, packets, bytes⟩ else none
  | .other _ _ => none

def exported (objects : List NamedObject) : List CounterValue :=
  objects.filterMap exported?

/-- Export counters; the last value of a name stays. -/
def exportAll (telemetry : Telemetry) (objects : List NamedObject) : Telemetry :=
  (exported objects).foldl Telemetry.setCounter telemetry

def poll (telemetry : Telemetry) (listed : Except GatewayError (List NamedObject)) :
    Telemetry × Except GatewayError Nat :=
  match listed with
  | .ok objects => (exportAll telemetry objects, .ok (exported objects).length)
  | .error cause => (telemetry, .error cause)

/-! ## Runs -/

structure Circumstances where
  listed : Except GatewayError (List NamedObject)
  /-- How many milliseconds the listing takes. -/
  listTime : Nat
  /-- Whether the poll starts if the daemon is told to stop by the same moment. -/
  startsAnyway : Bool

structure Plan where
  interval : Nat
  /-- When the daemon is told to stop. -/
  cancelAt : Option Nat
  circumstances : Nat → Circumstances

structure Run where
  polls : List Nat
  endedAt : Nat
  telemetry : Telemetry

structure Position extends Ticker where
  telemetry : Telemetry

def stopsBefore (plan : Plan) (position : Position) : Bool :=
  position.toTicker.stopsBefore plan.cancelAt (plan.circumstances position.index).startsAnyway

/-- The position behind the next poll. A late poll does not put off the one after it. -/
def Position.next (plan : Plan) (position : Position) : Position where
  index := position.index + 1
  now := position.start + (plan.circumstances position.index).listTime
  due := position.due + plan.interval
  telemetry := (poll position.telemetry (plan.circumstances position.index).listed).1

def runFrom (plan : Plan) : Nat → Position → Run
  | 0, position => ⟨[], position.now, position.telemetry⟩
  | fuel + 1, position =>
      if stopsBefore plan position then
        ⟨[], position.stopTime plan.cancelAt, position.telemetry⟩
      else
        let run := runFrom plan fuel (position.next plan)
        { run with polls := position.start :: run.polls }

/-- A run from the start for at most the given number of polls; the first one is due at once. -/
def run (plan : Plan) (polls : Nat) (telemetry : Telemetry) : Run :=
  runFrom plan polls ⟨.initial, telemetry⟩

end CounterPoller

end FlowFence
