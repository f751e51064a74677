import FlowFence.Reconciler.Tick
import FlowFence.Ruleset.Holdings

/-!
# The reconciler and its chain

Ticks together with the chain that they keep. The chain changes by batches that the filter takes,
and by what others do to it between ticks; it reports the number of rules that it holds.
-/

namespace FlowFence

namespace Reconciler

/-- A rule of the chain; a rule that others put there is not known. -/
abbrev Held := Option Program

structure World where
  memory : Memory
  holdings : Holdings Held

namespace World

def initial : World :=
  ⟨.initial, .empty⟩

/-- Others leave a number of rules in a chain. -/
def leave (world : World) (chain : Chain) (rules : Nat) : World :=
  { world with holdings := world.holdings.put chain (List.replicate rules none) }

/-- What a chain reports, unless it cannot be listed. -/
def report (world : World) (chain : Chain) (failure : Option GatewayError) :
    Except GatewayError Nat :=
  match failure with
  | some cause => .error cause
  | none => .ok (world.holdings chain).length

/-- The world after a tick: the filter has run the batch if it took one. -/
def after (world : World) (step : Step) : World where
  memory := step.tick.memory
  holdings :=
    match step.committed? with
    | some batch => batch.run some world.holdings
    | none => world.holdings

theorem holdings_after_of_none {world : World} {step : Step} (h : step.committed? = none) :
    (world.after step).holdings = world.holdings := by
  rw [after, h]

theorem holdings_after_of_some {world : World} {step : Step} {batch : Batch}
    (h : step.committed? = some batch) :
    (world.after step).holdings = batch.run some world.holdings := by
  rw [after, h]

end World

end Reconciler

end FlowFence
