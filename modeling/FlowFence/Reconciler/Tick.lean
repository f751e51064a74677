import FlowFence.Compilation
import FlowFence.ControlSocket
import FlowFence.Failure
import FlowFence.Fingerprint.Basic
import FlowFence.Telemetry.Basic

/-!
# One tick of the reconciler

A tick asks for the routes, makes a rule set of them and puts it into the chain, unless the chain
still holds the rule set that was put there last. To tell, the reconciler keeps the fingerprint of
that rule set, and forgets it when the chain does not report as many rules as it should hold. A tick
is a function of what the reconciler keeps and of the conditions that it meets.
-/

namespace FlowFence

namespace Reconciler

structure Setup where
  chain : Chain
  /-- Whether rules count in the named counters. -/
  counters : Bool
deriving DecidableEq

structure Memory where
  /-- The fingerprint of the rule set that was put in place last, or zero if that is in doubt. -/
  lastApplied : Fingerprint
  telemetry : Telemetry
deriving DecidableEq

def Memory.initial : Memory :=
  ⟨.zero, .initial⟩

structure Conditions where
  /-- How the query for routes ends. -/
  fetched : Except FetchError (List Char)
  fetchSeconds : Binary64
  /-- How many rules the chain reports. -/
  listed : Except GatewayError Nat
  /-- Whether the daemon has been told to stop by the time a rule set would be put in place. -/
  cancelled : Bool
  /-- What keeps a rule set from being put in place. -/
  commitFailure : Option GatewayError
  commitSeconds : Binary64

inductive Outcome where
  /-- There was no dump; the filter was left alone. -/
  | fetchFailed
  /-- The daemon was told to stop before anything was put in place. -/
  | cancelled
  /-- The chain holds the rule set already. -/
  | unchanged (fingerprint : Fingerprint)
  /-- The rule set was put in place. -/
  | applied (fingerprint : Fingerprint) (rules : Nat)
deriving DecidableEq

structure Tick where
  result : Except CommitError Outcome
  memory : Memory
  /-- Whether the chain was asked for its rules. -/
  listed : Bool
  /-- The batch that the filter was given, whether it took it or not. -/
  attempted : Option Batch

/-- The fingerprint that is still believed once the chain has reported its rules. -/
def believed (lastApplied : Fingerprint) (listed : Except GatewayError Nat) (rules : Nat) :
    Fingerprint :=
  match listed with
  | .ok count => if count = rules then lastApplied else .zero
  | .error _ => .zero

def apply (setup : Setup) (memory : Memory) (programs : List Program)
    (conditions : Conditions) : Tick :=
  let telemetry := memory.telemetry.setRoutes programs.length
  let batch := Batch.replaceChain setup.chain programs
  match conditions.commitFailure with
  | some cause =>
      ⟨.error ⟨setup.chain, programs.length, cause⟩, { memory with telemetry := telemetry }, true,
        some batch⟩
  | none =>
      let fingerprint := Fingerprint.ofPrograms programs
      ⟨.ok (.applied fingerprint programs.length),
        ⟨fingerprint, telemetry.observeFlush conditions.commitSeconds⟩, true, some batch⟩

/-- Compare a rule set with the one in place and put it there if need be. -/
def reconcile (setup : Setup) (memory : Memory) (programs : List Program)
    (conditions : Conditions) : Tick :=
  let fingerprint := Fingerprint.ofPrograms programs
  let memory :=
    { memory with
      lastApplied := believed memory.lastApplied conditions.listed programs.length }
  if fingerprint = memory.lastApplied then ⟨.ok (.unchanged fingerprint), memory, true, none⟩
  else if conditions.cancelled then ⟨.ok .cancelled, memory, true, none⟩
  else apply setup memory programs conditions

def tick (setup : Setup) (memory : Memory) (conditions : Conditions) : Tick :=
  let telemetry := memory.telemetry.observeQuery conditions.fetchSeconds
  match conditions.fetched with
  | .error .cancelled => ⟨.ok .cancelled, { memory with telemetry := telemetry }, false, none⟩
  | .error _ => ⟨.ok .fetchFailed, { memory with telemetry := telemetry }, false, none⟩
  | .ok dump =>
      let results := blockResults setup.counters dump
      let telemetry := telemetry.addErrors (results.countP BlockResult.isUnread)
        (results.countP BlockResult.isUncompiled)
      let programs := results.filterMap BlockResult.program?
      reconcile setup { memory with telemetry := telemetry } programs conditions

/-- A tick together with the conditions that it met. -/
structure Step where
  met : Conditions
  tick : Tick

def step (setup : Setup) (memory : Memory) (conditions : Conditions) : Step :=
  ⟨conditions, tick setup memory conditions⟩

namespace Step

/--
The batch that the filter took. It takes each batch that it is given unless something keeps it from
that, whatever the tick makes of it.
-/
def committed? (step : Step) : Option Batch :=
  match step.met.commitFailure with
  | some _ => none
  | none => step.tick.attempted

theorem committed?_of_accepted {step : Step} (h : step.met.commitFailure = none) :
    step.committed? = step.tick.attempted := by
  rw [committed?, h]

theorem committed?_of_failure {step : Step} {cause : GatewayError}
    (h : step.met.commitFailure = some cause) : step.committed? = none := by
  rw [committed?, h]

theorem committed?_of_idle {step : Step} (h : step.tick.attempted = none) :
    step.committed? = none := by
  unfold committed?
  split
  · rfl
  · exact h

theorem committed?_eq_some_iff {step : Step} {batch : Batch} :
    step.committed? = some batch ↔
      step.tick.attempted = some batch ∧ step.met.commitFailure = none := by
  cases h : step.met.commitFailure <;> simp [committed?, h]

end Step

end Reconciler

end FlowFence
