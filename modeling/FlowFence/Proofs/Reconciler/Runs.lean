import FlowFence.Proofs.Reconciler.Exits
import FlowFence.Reconciler.Run
import Mathlib.Logic.Function.Iterate

/-!
# The ticks of a run

What the clock adds to a tick, and the four ways in which a run goes on from a position. Later
results about runs take each step from here and never look into the run itself.
-/

namespace FlowFence

namespace Reconciler

/-! ## One tick -/

theorem cancelledBy_eq_true_iff {cancelAt : Option Nat} {moment : Nat} :
    cancelledBy cancelAt moment = true ↔ ∃ cancel, cancelAt = some cancel ∧ cancel ≤ moment := by
  cases cancelAt <;> simp [cancelledBy]

section Fetch

variable {interval start : Nat} {cancelAt : Option Nat} {c : Circumstances}

theorem start_le_fetch : start ≤ (fetch interval cancelAt start c).2 := by
  cases cancelAt with
  | none =>
      show start ≤ start + _
      omega
  | some cancel =>
      simp only [fetch]
      split
      · omega
      · split
        · omega
        · show start ≤ start + _
          omega

/-- A query is given up after an interval at the latest. -/
theorem fetch_le_add_interval : (fetch interval cancelAt start c).2 ≤ start + interval := by
  cases cancelAt with
  | none =>
      show start + _ ≤ start + interval
      omega
  | some cancel =>
      simp only [fetch]
      split
      · omega
      · split
        · omega
        · show start + _ ≤ start + interval
          omega

/-- A query is given up as soon as the daemon is told to stop. -/
theorem fetch_le {cancel : Nat} (h : cancelAt = some cancel) :
    (fetch interval cancelAt start c).2 ≤ max start cancel := by
  subst h
  simp only [fetch]
  split
  · exact Nat.le_refl _
  · split
    · exact Nat.le_refl _
    · omega

theorem cancelled_of_fetch (h : (fetch interval cancelAt start c).1 = .error .cancelled) :
    c.reply = .error .cancelled ∨
      cancelledBy cancelAt (fetch interval cancelAt start c).2 = true := by
  cases cancelAt with
  | none =>
      simp only [fetch] at h
      by_cases hlate : interval < c.fetchTime
      · simp [hlate] at h
      · exact .inl (by simpa [hlate] using h)
  | some cancel =>
      by_cases hreply : c.reply = .error .cancelled
      · exact .inl hreply
      · refine .inr ?_
        simp only [fetch] at h ⊢
        split
        · simp only [cancelledBy, decide_eq_true_eq]
          omega
        · rename_i hnoticed
          rw [if_neg hnoticed] at h
          split
          · simp only [cancelledBy, decide_eq_true_eq]
            omega
          · rename_i hend
            rw [if_neg hend] at h
            by_cases hlate : interval < c.fetchTime
            · simp [hlate] at h
            · exact (hreply (by simpa [hlate] using h)).elim

end Fetch

/-- What a tick of a run has to do with the moments at which its parts begin and end. -/
structure Record.KeepsTime (plan : Plan) (c : Circumstances) (record : Record) : Prop where
  start_le : record.start ≤ record.fetched
  fetched_le : ∀ cancel, plan.cancelAt = some cancel → record.fetched ≤ max record.start cancel
  fetched_le_listed : record.fetched ≤ record.listed
  listed_le : record.listed ≤ record.fetched + c.listTime
  idle : record.tick.attempted = none → record.finish = record.listed
  commit : record.tick.attempted.isSome = true →
    cancelledBy plan.cancelAt record.listed = false ∧
      record.finish = record.listed + c.commitTime
  cancelled : record.tick.result = .ok .cancelled →
    record.tick.attempted = none ∧
      (c.reply = .error .cancelled ∨ cancelledBy plan.cancelAt record.listed = true)

theorem keepsTime_tickAt (plan : Plan) (world : World) (start : Nat) (c : Circumstances) :
    (tickAt plan world start c).KeepsTime plan c := by
  have hexit : Exit plan.setup world.memory (conditionsAt plan world start c)
      (tickAt plan world start c).tick := exit_tick _ _ _
  have hreply : (conditionsAt plan world start c).fetched =
      (fetch plan.interval plan.cancelAt start c).1 := rfl
  have hcancelled : (conditionsAt plan world start c).cancelled = cancelledBy plan.cancelAt
      ((fetch plan.interval plan.cancelAt start c).2 + c.listTime) := rfl
  have hstart : (tickAt plan world start c).start = start := rfl
  have hfetched : (tickAt plan world start c).fetched =
      (fetch plan.interval plan.cancelAt start c).2 := rfl
  have hlisted : (tickAt plan world start c).listed =
      if (tickAt plan world start c).tick.listed then
        (fetch plan.interval plan.cancelAt start c).2 + c.listTime
      else (fetch plan.interval plan.cancelAt start c).2 := rfl
  have hfinish : (tickAt plan world start c).finish =
      if (tickAt plan world start c).tick.attempted.isSome then
        (tickAt plan world start c).listed + c.commitTime
      else (tickAt plan world start c).listed := rfl
  have hbegin : start ≤ (fetch plan.interval plan.cancelAt start c).2 := start_le_fetch
  generalize tickAt plan world start c = record at *
  refine ⟨by omega, fun cancel h => by rw [hfetched, hstart]; exact fetch_le h, ?_, ?_, ?_, ?_,
    ?_⟩
  · split at hlisted <;> omega
  · split at hlisted <;> omega
  · intro hnone
    simpa [hnone] using hfinish
  · intro hsome
    obtain ⟨hasked, hgoes⟩ := hexit.of_attempted hsome
    rw [if_pos hsome] at hfinish
    rw [if_pos hasked] at hlisted
    rw [hlisted, ← hcancelled]
    exact ⟨hgoes, hlisted ▸ hfinish⟩
  · intro hresult
    obtain ⟨hnone, hcause | ⟨hasked, hstopped⟩⟩ := hexit.cause_of_cancelled hresult
    · refine ⟨hnone, (cancelled_of_fetch (hreply ▸ hcause)).imp_right fun hnoticed => ?_⟩
      obtain ⟨cancel, hcancel, hle⟩ := cancelledBy_eq_true_iff.mp hnoticed
      refine cancelledBy_eq_true_iff.mpr ⟨cancel, hcancel, ?_⟩
      split at hlisted <;> omega
    · rw [if_pos hasked] at hlisted
      rw [hlisted, ← hcancelled]
      exact ⟨hnone, .inr hstopped⟩

/-! ## One step of a run -/

def Position.record (plan : Plan) (position : Position) : Record :=
  tickAt plan position.world position.start (plan.circumstances position.index)

def Position.next (plan : Plan) (position : Position) : Position :=
  position.after plan (position.record plan)

theorem Position.exit_record (plan : Plan) (position : Position) :
    Exit plan.setup position.world.memory (position.record plan).met (position.record plan).tick :=
  exit_tick _ _ _

theorem Position.record_keepsTime (plan : Plan) (position : Position) :
    (position.record plan).KeepsTime plan (plan.circumstances position.index) :=
  keepsTime_tickAt _ _ _ _

inductive Advance (plan : Plan) (fuel : Nat) (position : Position) : Run → Prop
  | stopped (stops : stopsBefore plan position = true) :
      Advance plan fuel position ⟨[], .stopped, position.stopTime plan.cancelAt, position.world⟩
  | failed (cause : CommitError) (starts : stopsBefore plan position = false)
      (result : (position.record plan).tick.result = .error cause) :
      Advance plan fuel position ⟨[position.record plan], .failed cause,
        (position.record plan).finish, (position.next plan).world⟩
  | cancelled (starts : stopsBefore plan position = false)
      (result : (position.record plan).tick.result = .ok .cancelled) :
      Advance plan fuel position ⟨[position.record plan], .stopped,
        (position.record plan).finish, (position.next plan).world⟩
  | continued (outcome : Outcome) (rest : Run) (starts : stopsBefore plan position = false)
      (result : (position.record plan).tick.result = .ok outcome) (goesOn : outcome ≠ .cancelled)
      (hrest : rest = runFrom plan fuel (position.next plan)) :
      Advance plan fuel position { rest with records := position.record plan :: rest.records }

theorem advance_runFrom (plan : Plan) (fuel : Nat) (position : Position) :
    Advance plan fuel position (runFrom plan (fuel + 1) position) := by
  rw [runFrom]
  by_cases hstops : stopsBefore plan position = true
  · rw [if_pos hstops]
    exact .stopped hstops
  · rw [if_neg hstops]
    have hstarts := Bool.eq_false_iff.mpr hstops
    dsimp only
    split
    · rename_i cause hresult
      exact .failed cause hstarts hresult
    · rename_i hresult
      exact .cancelled hstarts hresult
    · rename_i outcome hother hresult
      exact .continued outcome _ hstarts hresult hother rfl

theorem records_zero {plan : Plan} {position : Position}
    (starts : stopsBefore plan position = false) (fuel : Nat) :
    (runFrom plan (fuel + 1) position).records[0]? = some (position.record plan) := by
  have hadvance := advance_runFrom plan fuel position
  generalize runFrom plan (fuel + 1) position = run at hadvance
  cases hadvance with
  | stopped stops => cases starts.symm.trans stops
  | failed cause _ result => rfl
  | cancelled _ result => rfl
  | continued outcome rest _ result goesOn hrest => rfl

/-- A tick starts no later than the daemon is told to stop or the tick before has ended. -/
theorem start_le_of_starts {plan : Plan} {position : Position} {cancel : Nat}
    (hcancel : plan.cancelAt = some cancel) (h : stopsBefore plan position = false) :
    position.start ≤ max position.now cancel := by
  rw [stopsBefore, hcancel] at h
  exact Ticker.start_le h

/-- A run that is told to stop before its next tick is due does not start it. -/
theorem ends_of_due {plan : Plan} {position : Position} {cancel fuel : Nat}
    (hcancel : plan.cancelAt = some cancel) (hdue : cancel < position.due)
    (hnow : position.now < position.due) (hfuel : 0 < fuel) :
    (runFrom plan fuel position).ending ≠ .unfinished := by
  obtain ⟨fuel, rfl⟩ : ∃ more, fuel = more + 1 := ⟨fuel - 1, by omega⟩
  have hstops : stopsBefore plan position = true := by
    rw [stopsBefore, hcancel, Ticker.stopsBefore_of_due hdue hnow]
  simp [runFrom, hstops]

theorem add_interval_le_nextDue (interval due start : Nat) :
    due + interval ≤ nextDue interval due start := by
  unfold nextDue
  split <;> omega

/-! ## Positions of a run -/

/-- The ticks of a run are those of the positions that follow one another from its start. -/
theorem eq_record_of_getElem? {plan : Plan} {fuel i : Nat} {position : Position} {record : Record}
    (h : (runFrom plan fuel position).records[i]? = some record) :
    record = ((Position.next plan)^[i] position).record plan := by
  induction fuel generalizing position i with
  | zero => simp [runFrom] at h
  | succ fuel ih =>
      have hadvance := advance_runFrom plan fuel position
      generalize runFrom plan (fuel + 1) position = run at h hadvance
      have hfirst (rest : List Record) (hrest : ∀ {j}, rest[j]? = some record →
          record = ((Position.next plan)^[j] (position.next plan)).record plan)
          (h : (position.record plan :: rest)[i]? = some record) :
          record = ((Position.next plan)^[i] position).record plan := by
        cases i with
        | zero =>
            cases h
            rfl
        | succ i => exact hrest h
      cases hadvance with
      | stopped stops => simp at h
      | failed cause starts result => exact hfirst [] (by simp) h
      | cancelled starts result => exact hfirst [] (by simp) h
      | continued outcome rest starts result goesOn hrest =>
          subst hrest
          exact hfirst _ (fun {j} hj => ih hj) h

theorem index_iterate_next (plan : Plan) (position : Position) (i : Nat) :
    ((Position.next plan)^[i] position).index = position.index + i := by
  induction i with
  | zero => rfl
  | succ i ih =>
      rw [Function.iterate_succ_apply']
      exact congrArg (· + 1) ih

section Records

variable {plan : Plan} {fuel i : Nat} {position : Position} {record : Record}
  (h : (runFrom plan fuel position).records[i]? = some record)

include h

/-- Every tick of a run keeps to the clock in the circumstances of its number. -/
theorem keepsTime_of_getElem? :
    record.KeepsTime plan (plan.circumstances (position.index + i)) := by
  rw [eq_record_of_getElem? h, ← index_iterate_next plan position i]
  exact Position.record_keepsTime plan _

theorem exit_of_getElem? : ∃ memory, Exit plan.setup memory record.met record.tick := by
  rw [eq_record_of_getElem? h]
  exact ⟨_, Position.exit_record plan _⟩

/-- Every tick of a run meets the circumstances of its number. -/
theorem met_of_getElem? :
    record.met.fetched = (fetch plan.interval plan.cancelAt record.start
        (plan.circumstances (position.index + i))).1 ∧
      record.met.commitFailure = (plan.circumstances (position.index + i)).commitFailure := by
  rw [eq_record_of_getElem? h, ← index_iterate_next plan position i]
  exact ⟨rfl, rfl⟩

end Records

section Start

variable {plan : Plan} {fuel i : Nat} {world : World} {record : Record}
  (h : (run plan fuel world).records[i]? = some record)

include h

theorem keepsTime_run : record.KeepsTime plan (plan.circumstances i) := by
  simpa only [Ticker.initial, Nat.zero_add] using keepsTime_of_getElem? h

theorem met_run :
    record.met.fetched =
        (fetch plan.interval plan.cancelAt record.start (plan.circumstances i)).1 ∧
      record.met.commitFailure = (plan.circumstances i).commitFailure := by
  simpa only [Ticker.initial, Nat.zero_add] using met_of_getElem? h

end Start

end Reconciler

end FlowFence
