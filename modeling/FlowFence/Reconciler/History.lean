import FlowFence.Reconciler.World

/-!
# Histories of ticks

Ticks one after another, without the clock. What a tick meets is given but for the chain, which
reports the rules that the ticks before have left in it. Nobody else changes the chain.
-/

namespace FlowFence

namespace Reconciler

/-- What a tick meets, whatever the chain holds. -/
structure Encounter where
  /-- How the query for routes ends. -/
  fetched : Except FetchError (List Char)
  fetchSeconds : Binary64
  /-- What keeps the chain from being listed. -/
  listFailure : Option GatewayError
  /-- Whether the daemon has been told to stop by the time a rule set would be put in place. -/
  cancelled : Bool
  /-- What keeps a rule set from being put in place. -/
  commitFailure : Option GatewayError
  commitSeconds : Binary64

namespace World

def conditions (setup : Setup) (world : World) (encounter : Encounter) : Conditions where
  fetched := encounter.fetched
  fetchSeconds := encounter.fetchSeconds
  listed := world.report setup.chain encounter.listFailure
  cancelled := encounter.cancelled
  commitFailure := encounter.commitFailure
  commitSeconds := encounter.commitSeconds

def tick (setup : Setup) (world : World) (encounter : Encounter) : Tick :=
  Reconciler.tick setup world.memory (world.conditions setup encounter)

def step (setup : Setup) (world : World) (encounter : Encounter) : Step :=
  Reconciler.step setup world.memory (world.conditions setup encounter)

def next (setup : Setup) (world : World) (encounter : Encounter) : World :=
  world.after (world.step setup encounter)

def through (setup : Setup) (world : World) (encounters : List Encounter) : World :=
  encounters.foldl (next setup) world

def steps (setup : Setup) : World → List Encounter → List Step
  | _, [] => []
  | world, encounter :: encounters =>
      world.step setup encounter :: steps setup (world.next setup encounter) encounters

def ticks (setup : Setup) (world : World) (encounters : List Encounter) : List Tick :=
  (world.steps setup encounters).map (·.tick)

/-- The world at the start, whatever the chains hold. -/
def start (holdings : Holdings Held) : World :=
  ⟨.initial, holdings⟩

end World

namespace Memory

/-- What the reconciler keeps after ticks, whatever the chain reports to each of them. -/
def through (setup : Setup) (memory : Memory) (conditions : List Conditions) : Memory :=
  conditions.foldl (fun memory met => (Reconciler.tick setup memory met).memory) memory

def steps (setup : Setup) : Memory → List Conditions → List Step
  | _, [] => []
  | memory, met :: conditions =>
      Reconciler.step setup memory met ::
        steps setup (Reconciler.tick setup memory met).memory conditions

end Memory

def lastCommitted? (steps : List Step) : Option Batch :=
  (steps.filterMap Step.committed?).getLast?

end Reconciler

end FlowFence
