import FlowFence.Proofs.Reconciler.Runs
import FlowFence.Proofs.Reconciler.Synchrony

/-!
# The end of a run

A run that is told to stop begins to put no further rule set in place. If the chain is listed in no
time, it ends at that very moment, or, if it is putting a rule set in place then, as soon as that is
done. A run fails only because a rule set could not be put in place, and then does nothing more.
-/

namespace FlowFence

namespace Reconciler

def Record.CommitsAt (record : Record) (moment : Nat) : Prop :=
  record.tick.attempted.isSome = true ∧ record.listed ≤ moment ∧ moment < record.finish

/--
Whether a run ends as it should if it is told to stop at a moment: with the rule set that is being
put in place then, or at that moment, or before, by a failure or a query that says to be cancelled.
The first tick of the run has the given number.
-/
structure Run.EndsBy (run : Run) (plan : Plan) (index cancel : Nat) : Prop where
  during : ∀ record ∈ run.records, record.CommitsAt cancel → run.endedAt = record.finish
  otherwise : (∀ record ∈ run.records, ¬ record.CommitsAt cancel) →
    run.endedAt = cancel ∨ run.endedAt < cancel ∧ ((∃ cause, run.ending = .failed cause) ∨
      ∃ i < run.records.length, (plan.circumstances (index + i)).reply = .error .cancelled)

namespace Run.EndsBy

variable {plan : Plan} {index cancel : Nat} {record : Record} {rest : Run}

theorem stopped (plan : Plan) (index cancel : Nat) (world : World) :
    Run.EndsBy ⟨[], .stopped, cancel, world⟩ plan index cancel :=
  ⟨by simp, fun _ => .inl rfl⟩

theorem single {ending : Ending} {world : World}
    (hrecord : record.CommitsAt cancel ∨ record.finish ≤ cancel)
    (hearly : record.finish < cancel →
      (∃ cause, ending = .failed cause) ∨ (plan.circumstances index).reply = .error .cancelled) :
    Run.EndsBy ⟨[record], ending, record.finish, world⟩ plan index cancel := by
  refine ⟨by simp, fun hnone => ?_⟩
  have hfinish := hrecord.resolve_left (hnone record List.mem_cons_self)
  rcases Nat.eq_or_lt_of_le hfinish with hsame | hbefore
  · exact .inl hsame
  · exact .inr ⟨hbefore, (hearly hbefore).imp_right fun hreply => ⟨0, Nat.one_pos, hreply⟩⟩

/-- The tick that is committing at the moment of the stop is the last one that does anything. -/
theorem of_commitsAt (hcommits : record.CommitsAt cancel) (hend : rest.endedAt = record.finish)
    (hidle : ∀ later ∈ rest.records, later.tick.attempted = none) :
    Run.EndsBy { rest with records := record :: rest.records } plan index cancel := by
  refine ⟨?_, fun hnone => (hnone record List.mem_cons_self hcommits).elim⟩
  intro later hlater hcommitsAt
  rcases List.mem_cons.mp hlater with rfl | hlater
  · exact hend
  · simp [Record.CommitsAt, hidle later hlater] at hcommitsAt

theorem of_idle (h : rest.EndsBy plan (index + 1) cancel) (hidle : ¬ record.CommitsAt cancel) :
    Run.EndsBy { rest with records := record :: rest.records } plan index cancel := by
  refine ⟨?_, fun hnone => ?_⟩
  · intro later hlater hcommitsAt
    rcases List.mem_cons.mp hlater with rfl | hlater
    · exact (hidle hcommitsAt).elim
    · exact h.during later hlater hcommitsAt
  · refine (h.otherwise fun later hlater => hnone later (List.mem_cons_of_mem _ hlater)).imp_right
      (And.imp_right (Or.imp_right ?_))
    rintro ⟨i, hi, hreply⟩
    refine ⟨i + 1, Nat.succ_lt_succ hi, ?_⟩
    rwa [Nat.add_assoc, Nat.add_comm 1] at hreply

end Run.EndsBy

/-! ## Being told to stop -/

section Stop

variable {plan : Plan} {cancel : Nat} {position : Position}
  (hcancel : plan.cancelAt = some cancel) (hlist : ∀ i, (plan.circumstances i).listTime = 0)

include hcancel hlist

/-- No part of a tick but its commit goes on beyond the moment of the stop. -/
theorem record_bounds (starts : stopsBefore plan position = false) :
    (position.record plan).listed ≤ max position.now cancel ∧
      ((position.record plan).tick.attempted = none →
        (position.record plan).finish ≤ max position.now cancel) ∧
      ((position.record plan).tick.attempted.isSome = true →
        (position.record plan).listed < cancel) ∧
      position.now ≤ (position.record plan).listed ∧
      (position.record plan).listed ≤ (position.record plan).finish := by
  have hkeeps := position.record_keepsTime plan
  have hstart : (position.record plan).start = position.start := rfl
  have hnow : position.now ≤ position.start := Nat.le_max_left _ _
  have hbegin := start_le_of_starts hcancel starts
  have hfetched := hkeeps.fetched_le cancel hcancel
  have hasked := hkeeps.listed_le
  rw [hlist] at hasked
  have hstartLe := hkeeps.start_le
  have hlisted := hkeeps.fetched_le_listed
  refine ⟨by omega, fun hnone => ?_, fun hsome => ?_, by omega, ?_⟩
  · have hfinish := hkeeps.idle hnone
    omega
  · have hgoes := (hkeeps.commit hsome).1
    simp only [hcancel, cancelledBy, decide_eq_false_iff_not] at hgoes
    omega
  · cases hattempted : (position.record plan).tick.attempted with
    | none => exact Nat.le_of_eq (hkeeps.idle hattempted).symm
    | some batch =>
        have hfinish := (hkeeps.commit (by simp [hattempted])).2
        omega

/-- What still starts after the stop ends at once and offers the filter nothing. -/
theorem record_of_stopped (hnow : cancel ≤ position.now)
    (starts : stopsBefore plan position = false) :
    (position.record plan).tick.attempted = none ∧
      (position.record plan).finish = position.now := by
  obtain ⟨-, hidle, hgoes, hlisted, hfinish⟩ := record_bounds hcancel hlist starts
  have hnone : (position.record plan).tick.attempted = none := by
    rw [← Option.not_isSome_iff_eq_none]
    intro hsome
    have := hgoes hsome
    omega
  have := hidle hnone
  exact ⟨hnone, by omega⟩

theorem run_of_stopped {fuel : Nat} (hnow : cancel ≤ position.now)
    (hended : (runFrom plan fuel position).ending ≠ .unfinished) :
    (runFrom plan fuel position).endedAt = position.now ∧
      ∀ record ∈ (runFrom plan fuel position).records, record.tick.attempted = none := by
  induction fuel generalizing position with
  | zero => exact (hended rfl).elim
  | succ fuel ih =>
      have hadvance := advance_runFrom plan fuel position
      generalize runFrom plan (fuel + 1) position = run at hended hadvance
      cases hadvance with
      | stopped stops =>
          refine ⟨?_, by simp⟩
          rw [hcancel, Ticker.stopTime_some]
          exact Nat.max_eq_left hnow
      | failed cause starts result =>
          have hattempted := ((position.exit_record plan).cause_of_failed result).1
          have hnone := (record_of_stopped hcancel hlist hnow starts).1
          simp [hnone] at hattempted
      | cancelled starts result =>
          obtain ⟨hnone, hfinish⟩ := record_of_stopped hcancel hlist hnow starts
          exact ⟨hfinish, by simpa using hnone⟩
      | continued outcome rest starts result goesOn hrest =>
          subst hrest
          obtain ⟨hnone, hfinish⟩ := record_of_stopped hcancel hlist hnow starts
          have hnext : (position.next plan).now = position.now := hfinish
          obtain ⟨hend, hrecords⟩ :=
            ih (show cancel ≤ (position.next plan).now by omega) hended
          refine ⟨by rw [← hnext]; exact hend, ?_⟩
          intro record hrecord
          rcases List.mem_cons.mp hrecord with rfl | hrecord
          · exact hnone
          · exact hrecords record hrecord

/-- A commit that has begun before the stop either ends by then or is under way at that moment. -/
theorem commitsAt_or_finish_le (hnow : position.now ≤ cancel)
    (starts : stopsBefore plan position = false) :
    (position.record plan).CommitsAt cancel ∨
      ¬ (position.record plan).CommitsAt cancel ∧ (position.record plan).finish ≤ cancel := by
  obtain ⟨hlisted, hidle, hgoes, -, -⟩ := record_bounds hcancel hlist starts
  cases hattempted : (position.record plan).tick.attempted with
  | none =>
      have := hidle hattempted
      exact .inr ⟨by simp [Record.CommitsAt, hattempted], by omega⟩
  | some batch =>
      by_cases hlate : cancel < (position.record plan).finish
      · exact .inl ⟨by simp [hattempted], by omega, hlate⟩
      · exact .inr ⟨fun h => hlate h.2.2, by omega⟩

/-- A tick that is cancelled before the stop was so by its own query. -/
theorem reply_of_cancelled (starts : stopsBefore plan position = false)
    (result : (position.record plan).tick.result = .ok .cancelled)
    (hearly : (position.record plan).finish < cancel) :
    (plan.circumstances position.index).reply = .error .cancelled := by
  obtain ⟨-, hcause⟩ := (position.record_keepsTime plan).cancelled result
  obtain ⟨-, -, -, -, hfinish⟩ := record_bounds hcancel hlist starts
  refine hcause.resolve_right fun hstopped => ?_
  simp only [hcancel, cancelledBy, decide_eq_true_eq] at hstopped
  omega

/--
Until the stop the run either is putting a rule set in place at the moment of the stop, and then
ends with that, or is not, and then ends at that moment unless it has ended before.
-/
theorem endsBy_runFrom {fuel : Nat} (hnow : position.now ≤ cancel)
    (hended : (runFrom plan fuel position).ending ≠ .unfinished) :
    (runFrom plan fuel position).EndsBy plan position.index cancel := by
  induction fuel generalizing position with
  | zero => exact (hended rfl).elim
  | succ fuel ih =>
      have hadvance := advance_runFrom plan fuel position
      generalize runFrom plan (fuel + 1) position = run at hended hadvance
      cases hadvance with
      | stopped stops =>
          rw [hcancel, Ticker.stopTime_some, Nat.max_eq_right hnow]
          exact .stopped plan position.index cancel position.world
      | failed cause starts result =>
          have hrecord := commitsAt_or_finish_le hcancel hlist hnow starts
          exact .single (hrecord.imp_right And.right) fun _ => .inl ⟨cause, rfl⟩
      | cancelled starts result =>
          have hrecord := commitsAt_or_finish_le hcancel hlist hnow starts
          exact .single (hrecord.imp_right And.right) fun hearly =>
            .inr (reply_of_cancelled hcancel hlist starts result hearly)
      | continued outcome rest starts result goesOn hrest =>
          subst hrest
          rcases commitsAt_or_finish_le hcancel hlist hnow starts with hcommits | ⟨hidle, hfinish⟩
          · have hlate : cancel ≤ (position.next plan).now := Nat.le_of_lt hcommits.2.2
            obtain ⟨hend, hrecords⟩ := run_of_stopped hcancel hlist hlate hended
            exact .of_commitsAt hcommits hend hrecords
          · have hnext : (position.next plan).now ≤ cancel := hfinish
            exact (ih hnext hended).of_idle hidle

/-! ## Coming to an end -/

variable (hinterval : 0 < plan.interval)

include hinterval

/-- Due times ascend, so only so many ticks can start at the moment at which the run has to stop. -/
theorem ends_of_stopped {fuel n : Nat} (hnow : cancel ≤ position.now)
    (hdue : position.now < position.due + n) (hfuel : n < fuel) :
    (runFrom plan fuel position).ending ≠ .unfinished := by
  induction n generalizing position fuel with
  | zero => exact ends_of_due hcancel (by omega) (by omega) (by omega)
  | succ n ih =>
      obtain ⟨fuel, rfl⟩ : ∃ more, fuel = more + 1 := ⟨fuel - 1, by omega⟩
      have hadvance := advance_runFrom plan fuel position
      generalize runFrom plan (fuel + 1) position = run at hadvance
      cases hadvance with
      | stopped stops => simp
      | failed cause starts result => simp
      | cancelled starts result => simp
      | continued outcome rest starts result goesOn hrest =>
          subst hrest
          have hfinish := (record_of_stopped hcancel hlist hnow starts).2
          have hnext : (position.next plan).now = position.now := hfinish
          have hlater : position.due + plan.interval ≤ (position.next plan).due :=
            add_interval_le_nextDue _ _ _
          exact ih (show cancel ≤ (position.next plan).now by omega) (by omega) (by omega)

theorem exists_end {n : Nat} (hdue : cancel < position.due + n) :
    ∃ enough, ∀ fuel, enough ≤ fuel → (runFrom plan fuel position).ending ≠ .unfinished := by
  induction n generalizing position with
  | zero =>
      refine ⟨position.now + 1 - position.due + 1, fun fuel hfuel => ?_⟩
      by_cases hnow : cancel ≤ position.now
      · exact ends_of_stopped hcancel hlist hinterval hnow
          (n := position.now + 1 - position.due) (by omega) (by omega)
      · exact ends_of_due hcancel (by omega) (by omega) (by omega)
  | succ n ih =>
      have hlater : position.due + plan.interval ≤ (position.next plan).due :=
        add_interval_le_nextDue _ _ _
      obtain ⟨enough, henough⟩ := ih (show cancel < (position.next plan).due + n by omega)
      refine ⟨enough + 1, fun fuel hfuel => ?_⟩
      obtain ⟨fuel, rfl⟩ : ∃ more, fuel = more + 1 := ⟨fuel - 1, by omega⟩
      have hadvance := advance_runFrom plan fuel position
      generalize runFrom plan (fuel + 1) position = run at hadvance
      cases hadvance with
      | stopped stops => simp
      | failed cause starts result => simp
      | cancelled starts result => simp
      | continued outcome rest starts result goesOn hrest =>
          subst hrest
          exact henough fuel (by omega)

end Stop

/-! ## Failing -/

section Failure

variable {plan : Plan} {fuel : Nat} {position : Position}

/-- Nothing comes after a tick that could not put its rule set in place. -/
theorem last_of_failed {i : Nat} {record : Record} {cause : CommitError}
    (h : (runFrom plan fuel position).records[i]? = some record)
    (hresult : record.tick.result = .error cause) :
    i + 1 = (runFrom plan fuel position).records.length ∧
      (runFrom plan fuel position).ending = .failed cause ∧
      (runFrom plan fuel position).endedAt = record.finish := by
  induction fuel generalizing position i with
  | zero => simp [runFrom] at h
  | succ fuel ih =>
      have hadvance := advance_runFrom plan fuel position
      generalize runFrom plan (fuel + 1) position = run at h hadvance
      cases hadvance with
      | stopped stops => simp at h
      | failed other starts result =>
          obtain ⟨rfl, rfl⟩ : 0 = i ∧ position.record plan = record := by
            simpa [List.getElem?_singleton, eq_comm] using h
          rw [result] at hresult
          exact ⟨rfl, congrArg Ending.failed (Except.error.inj hresult), rfl⟩
      | cancelled starts result =>
          obtain ⟨rfl, rfl⟩ : 0 = i ∧ position.record plan = record := by
            simpa [List.getElem?_singleton, eq_comm] using h
          cases result.symm.trans hresult
      | continued outcome rest starts result goesOn hrest =>
          subst hrest
          cases i with
          | zero =>
              cases h
              cases result.symm.trans hresult
          | succ i =>
              obtain ⟨hlast, hending, hend⟩ := ih h
              exact ⟨congrArg (· + 1) hlast, hending, hend⟩

/-- A tick whose rule set the filter refuses fails with the filter's reason and is the last one. -/
theorem last_of_refused {i : Nat} {record : Record} {cause : GatewayError}
    (h : (runFrom plan fuel position).records[i]? = some record)
    (hattempted : record.tick.attempted.isSome = true)
    (hcommit : record.met.commitFailure = some cause) :
    ∃ rules, record.tick.result = .error ⟨plan.setup.chain, rules, cause⟩ ∧
      i + 1 = (runFrom plan fuel position).records.length ∧
      (runFrom plan fuel position).ending = .failed ⟨plan.setup.chain, rules, cause⟩ ∧
      (runFrom plan fuel position).endedAt = record.finish := by
  obtain ⟨batch, hbatch⟩ := Option.isSome_iff_exists.mp hattempted
  obtain ⟨memory, hexit⟩ := exit_of_getElem? h
  obtain ⟨-, programs, -, -, -, hresult, -⟩ := hexit.of_refused hbatch hcommit
  exact ⟨programs.length, hresult, last_of_failed h hresult⟩

theorem exists_failed {cause : CommitError}
    (h : (runFrom plan fuel position).ending = .failed cause) :
    ∃ (i : Nat) (record : Record), (runFrom plan fuel position).records[i]? = some record ∧
      record.tick.result = .error cause := by
  induction fuel generalizing position with
  | zero => cases h
  | succ fuel ih =>
      have hadvance := advance_runFrom plan fuel position
      generalize runFrom plan (fuel + 1) position = run at h hadvance
      cases hadvance with
      | stopped stops => cases h
      | failed other starts result =>
          cases h
          exact ⟨0, _, rfl, result⟩
      | cancelled starts result => cases h
      | continued outcome rest starts result goesOn hrest =>
          subst hrest
          obtain ⟨i, record, hrecord, hresult⟩ := ih h
          exact ⟨i + 1, record, hrecord, hresult⟩

end Failure

/--
Whatever a run meets and however ties are resolved: no rule set begins to be put in place once the
daemon has been told to stop, and one that has begun is given its time and is applied unless the
filter refuses it. If listings take no time, the run comes to an end after the stop, namely with the
rule set that is being put in place at that moment, or, if there is none, at that moment itself,
unless it has ended before, by a failure or by a query that says of itself to be cancelled. It fails
only if the filter refused a rule set that it was given. A tick in which that happens fails with the
filter's reason and is the last one, and the run ends with it.
-/
theorem run_ends_when_told_or_failed (plan : Plan) (world : World) :
    (∀ fuel i record, (run plan fuel world).records[i]? = some record →
      record.tick.attempted.isSome = true →
        cancelledBy plan.cancelAt record.listed = false ∧
          record.finish = record.listed + (plan.circumstances i).commitTime ∧
          ((plan.circumstances i).commitFailure = none →
            ∃ fingerprint rules, record.tick.result = .ok (.applied fingerprint rules))) ∧
    (∀ cancel, plan.cancelAt = some cancel → 0 < plan.interval →
      (∀ i, (plan.circumstances i).listTime = 0) →
        ∃ enough, ∀ fuel, enough ≤ fuel →
          let run := run plan fuel world
          run.ending ≠ .unfinished ∧
            (∀ record ∈ run.records, record.CommitsAt cancel → run.endedAt = record.finish) ∧
            ((∀ record ∈ run.records, ¬ record.CommitsAt cancel) →
              run.endedAt = cancel ∨
                run.endedAt < cancel ∧ ((∃ cause, run.ending = .failed cause) ∨
                  ∃ i < run.records.length,
                    (plan.circumstances i).reply = .error .cancelled))) ∧
    (∀ fuel failure, (run plan fuel world).ending = .failed failure →
      ∃ (i : Nat) (record : Record), (run plan fuel world).records[i]? = some record ∧
        record.tick.attempted.isSome = true ∧
        (plan.circumstances i).commitFailure = some failure.cause ∧
        record.tick.result = .error failure) ∧
    ∀ fuel i record cause, (run plan fuel world).records[i]? = some record →
      record.tick.attempted.isSome = true → (plan.circumstances i).commitFailure = some cause →
        ∃ rules, record.tick.result = .error ⟨plan.setup.chain, rules, cause⟩ ∧
          i + 1 = (run plan fuel world).records.length ∧
          (run plan fuel world).ending = .failed ⟨plan.setup.chain, rules, cause⟩ ∧
          (run plan fuel world).endedAt = record.finish := by
  refine ⟨?_, ?_, ?_, ?_⟩
  · intro fuel i record h hattempted
    obtain ⟨hgoes, hfinish⟩ := (keepsTime_run h).commit hattempted
    obtain ⟨memory, hexit⟩ := exit_of_getElem? h
    refine ⟨hgoes, hfinish, fun hcommit => ?_⟩
    exact hexit.of_accepted hattempted ((met_run h).2.trans hcommit)
  · intro cancel hcancel hinterval hlist
    have hdue : cancel < (Position.mk .initial world).due + (cancel + 1) := by
      show cancel < 0 + _
      omega
    obtain ⟨enough, henough⟩ := exists_end hcancel hlist hinterval hdue
    refine ⟨enough, fun fuel hfuel => ⟨henough fuel hfuel, ?_⟩⟩
    have hends := endsBy_runFrom hcancel hlist (Nat.zero_le cancel) (henough fuel hfuel)
    refine ⟨hends.during, fun hnone => (hends.otherwise hnone).imp_right ?_⟩
    simp only [Ticker.initial, Nat.zero_add]
    exact id
  · intro fuel failure h
    obtain ⟨i, record, hrecord, hresult⟩ := exists_failed h
    obtain ⟨memory, hexit⟩ := exit_of_getElem? hrecord
    obtain ⟨hattempted, hcause⟩ := hexit.cause_of_failed hresult
    exact ⟨i, record, hrecord, hattempted, (met_run hrecord).2.symm.trans hcause, hresult⟩
  · intro fuel i record cause h hattempted hcommit
    exact last_of_refused h hattempted ((met_run h).2.trans hcommit)

/-- A run whose first rule set takes longer than two intervals and is told to stop meanwhile. -/
def slowPlan (commitFailure : Option GatewayError) : Plan where
  setup := plainSetup
  interval := 1000
  cancelAt := some 500
  circumstances _ := {
    reply := .ok blockDump
    fetchTime := 100
    listFailure := none
    listTime := 0
    commitFailure := commitFailure
    commitTime := 2000
    startsAnyway := true
    fetchesAnyway := true }

/-- The first tick starts at once and has the filter busy with the rule of the dump until 2100. -/
theorem slowPlan_commitsAt (commitFailure : Option GatewayError) :
    let record := Position.record (slowPlan commitFailure) ⟨.initial, .start .empty⟩
    record.CommitsAt 500 ∧ record.finish = 2100 := by
  intro record
  have hfetched : record.met.fetched = .ok blockDump := rfl
  have hunknown : Fingerprint.ofPrograms (programsOf plainSetup.counters blockDump) ≠
      believed .zero record.met.listed (programsOf plainSetup.counters blockDump).length := by
    rw [show record.met.listed = .ok 0 from rfl, programsOf_blockDump, ofPrograms_blockProgram]
    decide
  have hexit : Exit plainSetup .initial record.met record.tick := exit_tick _ _ _
  have hattempted : record.tick.attempted.isSome = true := by
    rw [hexit.attempted_of_unknown hfetched hunknown rfl, Option.isSome_some]
  have hended : record.listed = 100 := if_pos (hexit.of_attempted hattempted).1
  obtain ⟨-, hfinish⟩ := (Position.record_keepsTime _ _).commit hattempted
  have hfinishIs : record.finish = 2100 := by
    rw [hfinish, hended]
    rfl
  exact ⟨⟨hattempted, by omega, by omega⟩, hfinishIs⟩

/-- The rule set is finished after the stop if the filter takes it, and ends the run if it does not. -/
theorem slowPlan_ends_with_commit :
    let taken (fuel : Nat) := run (slowPlan none) fuel (.start .empty)
    let refused := run (slowPlan (some .listing)) 3 (.start .empty)
    (∃ record : Record, (taken 3).records[0]? = some record ∧
      cancelledBy (some 500) record.listed = false ∧ record.finish = record.listed + 2000 ∧
      ∃ fingerprint rules, record.tick.result = .ok (.applied fingerprint rules)) ∧
    (∃ enough, ∀ fuel, enough ≤ fuel → (taken fuel).endedAt = 2100) ∧
    refused.records.length = 1 ∧ refused.endedAt = 2100 ∧
      ∃ rules, refused.ending = .failed ⟨plainSetup.chain, rules, .listing⟩ := by
  intro taken refused
  obtain ⟨hbegun, hstop, -, -⟩ := run_ends_when_told_or_failed (slowPlan none) (.start .empty)
  obtain ⟨-, -, -, hlast⟩ :=
    run_ends_when_told_or_failed (slowPlan (some .listing)) (.start .empty)
  have hfirst (fuel : Nat) : (taken (fuel + 1)).records[0]? = some _ := records_zero rfl fuel
  have honly : refused.records[0]? = some _ := records_zero rfl 2
  obtain ⟨hcommits, hfinish⟩ := slowPlan_commitsAt none
  obtain ⟨hoffers, hfinishes⟩ := slowPlan_commitsAt (some .listing)
  refine ⟨?_, ?_, ?_⟩
  · obtain ⟨hgoes, htime, happlied⟩ := hbegun 3 0 _ (hfirst 2) hcommits.1
    exact ⟨_, hfirst 2, hgoes, htime, happlied rfl⟩
  · obtain ⟨enough, henough⟩ := hstop 500 rfl (by decide) fun _ => rfl
    refine ⟨enough + 1, fun fuel hfuel => ?_⟩
    obtain ⟨fuel, rfl⟩ : ∃ more, fuel = more + 1 := ⟨fuel - 1, by omega⟩
    obtain ⟨-, hduring, -⟩ := henough (fuel + 1) (by omega)
    rw [← hfinish]
    exact hduring _ (List.mem_of_getElem? (hfirst fuel)) hcommits
  · obtain ⟨rules, -, hlength, hending, hended⟩ := hlast 3 0 _ .listing honly hoffers.1 rfl
    exact ⟨hlength.symm, hended.trans hfinishes, rules, hending⟩

end Reconciler

end FlowFence
