import FlowFence.Reconciler.World
import FlowFence.Ticker

/-!
# Runs of the reconciler

Ticks follow one another on a clock of milliseconds. A tick is due one interval after the one
before; one that starts too late for that by more than a small tolerance restarts the schedule. The
query of a tick is cut off after the interval. Being told to stop ends a run between ticks, during a
query or before a rule set is put in place, but never while that is going on. Where two things
happen at the same moment, the circumstances of the tick say which one is noticed.
-/

namespace FlowFence

namespace Reconciler

/-- What one tick of a run meets. Times are lengths in milliseconds. -/
structure Circumstances where
  /-- How the query would end if it was given the time. -/
  reply : Except FetchError (List Char)
  fetchTime : Nat
  listFailure : Option GatewayError
  listTime : Nat
  commitFailure : Option GatewayError
  commitTime : Nat
  /-- Whether the tick starts if the daemon is told to stop by the same moment. -/
  startsAnyway : Bool
  /-- Whether the end of the query counts if the daemon is told to stop by the same moment. -/
  fetchesAnyway : Bool

structure Plan where
  setup : Setup
  interval : Nat
  /-- When the daemon is told to stop. -/
  cancelAt : Option Nat
  circumstances : Nat → Circumstances

/-- How late a tick may start for the schedule to be kept. -/
def tolerance : Nat := 5

def secondsOf (milliseconds : Nat) : Binary64 :=
  Telemetry.ratio milliseconds 1000

def durationOf (milliseconds : Nat) : Duration :=
  ⟨milliseconds * 1000000⟩

def cancelledBy (cancelAt : Option Nat) (moment : Nat) : Bool :=
  match cancelAt with
  | some cancel => cancel ≤ moment
  | none => false

/-- How a query that starts at a moment ends, and when. -/
def fetch (interval : Nat) (cancelAt : Option Nat) (start : Nat) (c : Circumstances) :
    Except FetchError (List Char) × Nat :=
  let finish := start + min c.fetchTime interval
  let reply := if interval < c.fetchTime then .error (.timeout (durationOf interval)) else c.reply
  match cancelAt with
  | none => (reply, finish)
  | some cancel =>
      let noticed := max start cancel
      if noticed < finish then (.error .cancelled, noticed)
      else if noticed = finish ∧ !c.fetchesAnyway then (.error .cancelled, noticed)
      else (reply, finish)

structure Record extends Step where
  start : Nat
  /-- When the query ended. -/
  fetched : Nat
  /-- When the listing ended; the end of the query if there was none. -/
  listed : Nat
  /-- When the tick ended. -/
  finish : Nat

def conditionsAt (plan : Plan) (world : World) (start : Nat) (c : Circumstances) : Conditions :=
  let query := fetch plan.interval plan.cancelAt start c
  { fetched := query.1
    fetchSeconds := secondsOf (query.2 - start)
    listed := world.report plan.setup.chain c.listFailure
    cancelled := cancelledBy plan.cancelAt (query.2 + c.listTime)
    commitFailure := c.commitFailure
    commitSeconds := secondsOf c.commitTime }

def tickAt (plan : Plan) (world : World) (start : Nat) (c : Circumstances) : Record :=
  let fetched := (fetch plan.interval plan.cancelAt start c).2
  let step := step plan.setup world.memory (conditionsAt plan world start c)
  let listed := if step.tick.listed then fetched + c.listTime else fetched
  let finish := if step.tick.attempted.isSome then listed + c.commitTime else listed
  ⟨step, start, fetched, listed, finish⟩

inductive Ending where
  /-- The daemon was told to stop. -/
  | stopped
  /-- A rule set could not be put in place. -/
  | failed (cause : CommitError)
  /-- The run goes on beyond what was looked at. -/
  | unfinished
deriving DecidableEq

structure Run where
  records : List Record
  ending : Ending
  endedAt : Nat
  world : World

structure Position extends Ticker where
  world : World

def stopsBefore (plan : Plan) (position : Position) : Bool :=
  position.toTicker.stopsBefore plan.cancelAt (plan.circumstances position.index).startsAnyway

/-- When the tick after one that was due and started at the given moments is due. -/
def nextDue (interval due start : Nat) : Nat :=
  if due + tolerance < start then start + interval else due + interval

def Position.after (plan : Plan) (position : Position) (record : Record) : Position where
  index := position.index + 1
  now := record.finish
  due := nextDue plan.interval position.due record.start
  world := position.world.after record.toStep

/-- Go on with a run from a position for at most the given number of ticks. -/
def runFrom (plan : Plan) : Nat → Position → Run
  | 0, position => ⟨[], .unfinished, position.now, position.world⟩
  | fuel + 1, position =>
      if stopsBefore plan position then
        ⟨[], .stopped, position.stopTime plan.cancelAt, position.world⟩
      else
        let record :=
          tickAt plan position.world position.start (plan.circumstances position.index)
        let next := position.after plan record
        match record.tick.result with
        | .error cause => ⟨[record], .failed cause, record.finish, next.world⟩
        | .ok .cancelled => ⟨[record], .stopped, record.finish, next.world⟩
        | .ok _ =>
            let run := runFrom plan fuel next
            { run with records := record :: run.records }

/-- A run from the start for at most the given number of ticks; the first one is due at once. -/
def run (plan : Plan) (ticks : Nat) (world : World) : Run :=
  runFrom plan ticks ⟨.initial, world⟩

def Run.fetches (run : Run) : List Nat :=
  run.records.map (·.start)

/-- When a rule set was in place and how many rules it had, if the filter took one of the tick. -/
def Record.commit? (record : Record) : Option (Nat × Nat) :=
  record.committed?.map fun batch => (record.finish, batch.programs.length)

def Run.commits (run : Run) : List (Nat × Nat) :=
  run.records.filterMap Record.commit?

end Reconciler

end FlowFence
