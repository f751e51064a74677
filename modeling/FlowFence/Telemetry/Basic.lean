import FlowFence.Telemetry.Histogram

/-!
# Telemetry

What the daemon measures about itself and reads from the filter's counters.
-/

namespace FlowFence

structure CounterValue where
  name : String
  packets : Nat
  bytes : Nat
deriving DecidableEq, Inhabited

structure Telemetry where
  /-- How many routes the rule set that was put in place last was made of. -/
  routes : Nat
  /-- How many blocks described no route. -/
  parseErrors : Nat
  /-- How many routes had no program. -/
  compileErrors : Nat
  /-- The seconds that route queries took. -/
  queries : Histogram
  /-- The seconds that rule sets took to be put in place. -/
  flushes : Histogram
  /-- The counters read last, one value for each name, ordered by name. -/
  counters : List CounterValue
deriving DecidableEq

namespace Telemetry

/-- A decimal fraction as a binary number. -/
def ratio (numerator denominator : Nat) : Binary64 :=
  .ofRatio false numerator denominator

def queryBounds : List Binary64 :=
  Histogram.geometricBounds (ratio 1 10000) (ratio 3 2) 15

def flushBounds : List Binary64 :=
  [ratio 5 1000, ratio 1 100, ratio 25 1000, ratio 5 100, ratio 1 10, ratio 25 100, ratio 5 10,
    ratio 1 1, ratio 25 10, ratio 5 1, ratio 10 1]

def initial : Telemetry :=
  ⟨0, 0, 0, .ofBounds queryBounds, .ofBounds flushBounds, []⟩

def setValue (value : CounterValue) : List CounterValue → List CounterValue
  | [] => [value]
  | old :: others =>
      if value.name < old.name then value :: old :: others
      else if value.name = old.name then value :: others
      else old :: setValue value others

def setCounter (telemetry : Telemetry) (value : CounterValue) : Telemetry :=
  { telemetry with counters := setValue value telemetry.counters }

def setRoutes (telemetry : Telemetry) (routes : Nat) : Telemetry :=
  { telemetry with routes := routes }

/-- Count blocks that described no route and routes that had no program. -/
def addErrors (telemetry : Telemetry) (parse compile : Nat) : Telemetry :=
  { telemetry with
    parseErrors := telemetry.parseErrors + parse
    compileErrors := telemetry.compileErrors + compile }

def observeQuery (telemetry : Telemetry) (seconds : Binary64) : Telemetry :=
  { telemetry with queries := telemetry.queries.observe seconds }

def observeFlush (telemetry : Telemetry) (seconds : Binary64) : Telemetry :=
  { telemetry with flushes := telemetry.flushes.observe seconds }

end Telemetry

end FlowFence
