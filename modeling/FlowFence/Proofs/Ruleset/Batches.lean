import FlowFence.Ruleset.Holdings
import Mathlib.Data.List.Forall2

/-!
# What batches make of chains

A batch that replaces the rules of a chain leaves it with the given rules, in order, whatever it
held, and leaves every other chain as it is. Steps that do what the changes of a batch do, one after
another, do together what the batch does.
-/

namespace FlowFence

namespace Holdings

variable {α β : Type}

def map (f : α → β) (holdings : Holdings α) : Holdings β :=
  fun chain => (holdings chain).map f

theorem map_put (f : α → β) (holdings : Holdings α) (chain : Chain) (rules : List α) :
    (holdings.put chain rules).map f = (holdings.map f).put chain (rules.map f) := by
  funext other
  by_cases h : other = chain <;> simp [map, put, h]

theorem map_flush (f : α → β) (holdings : Holdings α) (chain : Chain) :
    (holdings.flush chain).map f = (holdings.map f).flush chain := by
  rw [flush, map_put]
  rfl

theorem map_append (f : α → β) (holdings : Holdings α) (chain : Chain) (rule : α) :
    (holdings.append chain rule).map f = (holdings.map f).append chain (f rule) := by
  rw [append, map_put, List.map_append]
  rfl

end Holdings

namespace Batch

variable {α : Type} (rule : Program → α)

theorem run_cons (holdings : Holdings α) (change : Change) (batch : Batch) :
    run rule holdings (change :: batch) = run rule (change.run rule holdings) batch :=
  rfl

theorem run_appends (holdings : Holdings α) (chain : Chain) (programs : List Program) :
    run rule holdings (programs.map (.append chain)) chain =
      holdings chain ++ programs.map rule := by
  induction programs generalizing holdings with
  | nil => simp [run]
  | cons program programs ih =>
      rw [List.map_cons, run_cons, Change.run, ih, Holdings.append_same, List.append_assoc]
      rfl

theorem run_replaceChain (holdings : Holdings α) (chain : Chain) (programs : List Program) :
    run rule holdings (.replaceChain chain programs) chain = programs.map rule := by
  rw [replaceChain, run_cons, Change.run, run_appends, Holdings.flush_same, List.nil_append]

theorem run_appends_other (holdings : Holdings α) {chain other : Chain} (h : other ≠ chain)
    (programs : List Program) :
    run rule holdings (programs.map (.append chain)) other = holdings other := by
  induction programs generalizing holdings with
  | nil => rfl
  | cons program programs ih =>
      rw [List.map_cons, run_cons, Change.run, ih, Holdings.append_other _ _ h]

theorem run_replaceChain_other (holdings : Holdings α) {chain other : Chain} (h : other ≠ chain)
    (programs : List Program) :
    run rule holdings (.replaceChain chain programs) other = holdings other := by
  rw [replaceChain, run_cons, Change.run, run_appends_other rule _ h, Holdings.flush_other _ h]

/-- Steps for each change of a batch amount to the batch, up to the form of the rules. -/
theorem run_eq_map_foldl {β σ : Type} {step : Holdings β → σ → Holdings β} {f : β → α}
    {DoesStep : σ → Change → Prop}
    (hstep : ∀ ⦃item change⦄, DoesStep item change → ∀ holdings : Holdings β,
      change.run rule (holdings.map f) = (step holdings item).map f)
    {items : List σ} {batch : Batch} (h : List.Forall₂ DoesStep items batch)
    (prior : Holdings β) :
    run rule (prior.map f) batch = (items.foldl step prior).map f := by
  induction h generalizing prior with
  | nil => rfl
  | cons hitem _ ih => rw [run_cons, hstep hitem, ih, List.foldl_cons]

end Batch

end FlowFence
