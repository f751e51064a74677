/-!
# Tickers

Some things are done again and again, an interval apart. A ticker tells how often one has been done,
what the time is, and when it is due again. It waits for that time or for being told to stop.
-/

namespace FlowFence

structure Ticker where
  /-- The number of the next turn. -/
  index : Nat
  now : Nat
  /-- When the next turn is due. -/
  due : Nat

namespace Ticker

/-- The first turn is due at once. -/
def initial : Ticker :=
  ⟨0, 0, 0⟩

/-- When the next turn starts if nothing keeps it. -/
def start (ticker : Ticker) : Nat :=
  max ticker.now ticker.due

/--
Whether the daemon is told to stop instead of starting the next turn. If it is told by the moment at
which that would start, either may be noticed first.
-/
def stopsBefore (ticker : Ticker) (cancelAt : Option Nat) (startsAnyway : Bool) : Bool :=
  match cancelAt with
  | none => false
  | some cancel =>
      if cancel < ticker.due ∧ ticker.now < ticker.due then true
      else decide (cancel ≤ ticker.start) && !startsAnyway

/-- When the daemon notices that it is told to stop, if it does so before the next turn. -/
def stopTime (ticker : Ticker) (cancelAt : Option Nat) : Nat :=
  max ticker.now (cancelAt.getD 0)

/--
How many turns there are at most until a moment, with the one after it: due times ascend by the
interval at least.
-/
def turnsUntil (interval moment : Nat) : Nat :=
  moment / interval + 2

variable {ticker : Ticker} {cancelAt : Option Nat} {cancel : Nat} {startsAnyway : Bool}

@[simp] theorem stopsBefore_none : ticker.stopsBefore none startsAnyway = false := rfl

@[simp] theorem stopTime_some : ticker.stopTime (some cancel) = max ticker.now cancel := rfl

/-- Nothing but being told to stop keeps a turn from its start. -/
theorem cancel_le_start (h : ticker.stopsBefore cancelAt startsAnyway = true) :
    ∃ cancel, cancelAt = some cancel ∧ cancel ≤ ticker.start := by
  cases cancelAt with
  | none => cases h
  | some cancel =>
      refine ⟨cancel, rfl, ?_⟩
      simp only [stopsBefore] at h
      split at h
      · rename_i hbefore
        exact Nat.le_trans (Nat.le_of_lt hbefore.1) (Nat.le_max_right _ _)
      · rw [Bool.and_eq_true, decide_eq_true_eq] at h
        exact h.1

/-- A turn starts no later than the daemon is told to stop or the turn before has ended. -/
theorem start_le (h : ticker.stopsBefore (some cancel) startsAnyway = false) :
    ticker.start ≤ max ticker.now cancel := by
  simp only [stopsBefore] at h
  split at h
  · cases h
  · simp only [start]
    omega

theorem stopsBefore_of_due (hdue : cancel < ticker.due) (hnow : ticker.now < ticker.due) :
    ticker.stopsBefore (some cancel) startsAnyway = true := by
  rw [stopsBefore, if_pos ⟨hdue, hnow⟩]

end Ticker

end FlowFence
