import FlowFence.Proofs.Reconciler.Synchrony

/-!
# Ticks that fail

A tick that gets no dump, or is told to stop, or cannot put its rules in place leaves the chain as
it was, and none of them makes the reconciler believe that rules are in place which are not. For
the last kind this lasts: the rules that failed stay unknown until a rule set of their fingerprint
is put in place, whatever the ticks in between meet.
-/

namespace FlowFence

namespace Reconciler

variable {setup : Setup} {memory : Memory} {conditions : Conditions} {done : Tick}
  {fingerprint : Fingerprint}

def Step.PutsInPlace (setup : Setup) (fingerprint : Fingerprint) (step : Step) : Prop :=
  ∃ programs, step.committed? = some (.replaceChain setup.chain programs) ∧
    Fingerprint.ofPrograms programs = fingerprint

theorem believed_ne {lastApplied : Fingerprint} (hnonzero : fingerprint ≠ .zero)
    (hunknown : lastApplied ≠ fingerprint) (listed : Except GatewayError Nat) (rules : Nat) :
    believed lastApplied listed rules ≠ fingerprint := by
  rcases believed_eq_or lastApplied listed rules with hkept | hzero
  · rwa [hkept]
  · rw [hzero]
    exact hnonzero.symm

/-- One tick makes a fingerprint known only by putting a rule set with it in place. -/
theorem Exit.unknown_or_putsInPlace (h : Exit setup memory conditions done)
    (hnonzero : fingerprint ≠ .zero) (hunknown : memory.lastApplied ≠ fingerprint) :
    done.memory.lastApplied ≠ fingerprint ∨
      (Step.mk conditions done).PutsInPlace setup fingerprint := by
  have hbelieved := believed_ne hnonzero hunknown conditions.listed
  cases h with
  | unfetched cause fetched => exact .inl hunknown
  | unchanged dump programs fetched hprograms same =>
      have hsame := hbelieved programs.length
      rw [← same] at hsame
      exact .inl hsame
  | cancelled dump programs fetched hprograms differs cancelled =>
      exact .inl (hbelieved programs.length)
  | failed dump programs cause fetched hprograms differs cancelled commit =>
      exact .inl (hbelieved programs.length)
  | applied dump programs fetched hprograms differs cancelled commit =>
      by_cases hsame : Fingerprint.ofPrograms programs = fingerprint
      · refine .inr ⟨programs, ?_, hsame⟩
        exact Step.committed?_eq_some_iff.mpr ⟨rfl, commit⟩
      · exact .inl hsame

theorem lastApplied_through_ne (hnonzero : fingerprint ≠ .zero) {later : List Conditions}
    (hunknown : memory.lastApplied ≠ fingerprint)
    (hnone : ∀ since ∈ memory.steps setup later, ¬ since.PutsInPlace setup fingerprint) :
    (memory.through setup later).lastApplied ≠ fingerprint := by
  induction later generalizing memory with
  | nil => exact hunknown
  | cons met later ih =>
      have hexit : Exit setup memory met (tick setup memory met) := exit_tick _ _ _
      have hhead := hnone _ List.mem_cons_self
      have hnext := (hexit.unknown_or_putsInPlace hnonzero hunknown).resolve_right hhead
      have htail : ∀ since ∈ (tick setup memory met).memory.steps setup later,
          ¬ since.PutsInPlace setup fingerprint :=
        fun since hsince => hnone since (List.mem_cons_of_mem _ hsince)
      exact ih hnext htail

/-- A rule set that is found in place has been put there since it was not known. -/
theorem exists_putsInPlace_of_unchanged (hnonzero : fingerprint ≠ .zero)
    (hunknown : memory.lastApplied ≠ fingerprint) {later : List Conditions} {last : Conditions}
    {dump : List Char} (hfetched : last.fetched = .ok dump)
    (hdigest : Fingerprint.ofPrograms (programsOf setup.counters dump) = fingerprint)
    {found : Fingerprint}
    (hresult : (tick setup (memory.through setup later) last).result = .ok (.unchanged found)) :
    ∃ since ∈ memory.steps setup later, since.PutsInPlace setup fingerprint := by
  by_contra hnone
  have hstill : (memory.through setup later).lastApplied ≠ fingerprint :=
    lastApplied_through_ne hnonzero hunknown fun since hsince hputs => hnone ⟨since, hsince, hputs⟩
  have hexit : Exit setup _ last _ := exit_tick setup (memory.through setup later) last
  obtain ⟨other, programs, hother, rfl, -, same, -⟩ := hexit.of_unchanged hresult
  obtain rfl : other = dump := Except.ok.inj (hother.symm.trans hfetched)
  rw [hdigest] at same
  exact believed_ne hnonzero hstill _ _ same.symm

/--
Whatever the reconciler keeps and a tick meets. A tick without a dump asks nothing of the filter and
leaves the fingerprint, the chains, the number of routes and the counts of errors as they were. A
tick that is told to stop after it has listed the chain gives the filter nothing and keeps the
fingerprint or forgets it. If the filter does not take what a tick gives it, that were the rules of
the tick's dump, the tick fails with the filter's reason, and it does not take the rules for being in
place; nor does any tick after it, whatever those between them meet, unless the filter has taken a
rule set of the same fingerprint from one of these. A tick fails for no other reason.
-/
theorem failed_tick_is_not_forgotten (setup : Setup) (world : World) (conditions : Conditions) :
    let done := tick setup world.memory conditions
    let after := world.after (step setup world.memory conditions)
    (∀ cause, conditions.fetched = .error cause →
      done.listed = false ∧ done.attempted = none ∧
        after.memory.lastApplied = world.memory.lastApplied ∧ after.holdings = world.holdings ∧
        after.memory.telemetry.routes = world.memory.telemetry.routes ∧
        after.memory.telemetry.parseErrors = world.memory.telemetry.parseErrors ∧
        after.memory.telemetry.compileErrors = world.memory.telemetry.compileErrors) ∧
    (done.result = .ok .cancelled → done.listed = true →
      done.attempted = none ∧ after.holdings = world.holdings ∧
        (after.memory.lastApplied = world.memory.lastApplied ∨
          after.memory.lastApplied = .zero)) ∧
    (∀ batch cause, done.attempted = some batch → conditions.commitFailure = some cause →
      ∃ dump programs, conditions.fetched = .ok dump ∧
        programs = programsOf setup.counters dump ∧
        batch = .replaceChain setup.chain programs ∧
        done.result = .error ⟨setup.chain, programs.length, cause⟩ ∧
        after.holdings = world.holdings ∧
        after.memory.lastApplied ≠ .ofPrograms programs ∧
        (Fingerprint.ofPrograms programs ≠ .zero →
          ∀ (later : List Conditions) (last : Conditions) (text : List Char) (found : Fingerprint),
            last.fetched = .ok text →
            Fingerprint.ofPrograms (programsOf setup.counters text) = .ofPrograms programs →
            (tick setup (after.memory.through setup later) last).result =
              .ok (.unchanged found) →
              ∃ since ∈ after.memory.steps setup later,
                since.PutsInPlace setup (.ofPrograms programs))) ∧
    ∀ failure, done.result = .error failure →
      done.attempted.isSome = true ∧ conditions.commitFailure = some failure.cause := by
  intro done after
  have hexit : Exit setup world.memory conditions done := exit_tick _ _ _
  have hmemory : after.memory = done.memory := rfl
  have hholdings (h : (step setup world.memory conditions).committed? = none) :
      after.holdings = world.holdings := World.holdings_after_of_none h
  refine ⟨?_, ?_, ?_, ?_⟩
  · intro cause hfetched
    have hdone := hexit.of_unfetched hfetched
    have hidle : done.attempted = none := by rw [hdone]
    rw [hholdings (Step.committed?_of_idle hidle), hmemory, hdone]
    exact ⟨rfl, rfl, rfl, rfl, rfl, rfl, rfl⟩
  · intro hresult hlisted
    obtain ⟨rules, hidle, hbelieved⟩ := hexit.of_cancelled hresult hlisted
    rw [hmemory, hbelieved]
    exact ⟨hidle, hholdings (Step.committed?_of_idle hidle), believed_eq_or _ _ rules⟩
  · intro batch cause hattempted hcommit
    obtain ⟨dump, programs, hfetched, hprograms, hbatch, hresult, hunknown⟩ :=
      hexit.of_refused hattempted hcommit
    refine ⟨dump, programs, hfetched, hprograms, hbatch, hresult,
      hholdings (Step.committed?_of_failure hcommit), hunknown, ?_⟩
    intro hnonzero later last text found htext hdigest hunchanged
    exact exists_putsInPlace_of_unchanged hnonzero hunknown htext hdigest hunchanged
  · exact fun failure => hexit.cause_of_failed

/-! ## A rule set that fails at first -/

/-- A world that remembers the rules of a dump, though others have left three rules in the chain. -/
def driftedWorld : World :=
  World.leave ⟨⟨.ofPrograms [blockProgram], .initial⟩, .empty⟩ plainSetup.chain 3

def slowQuery : Conditions :=
  ⟨.error (.timeout ⟨10000000000⟩), .zero, .ok 3, false, none, .zero⟩

def blockConditions (listed : Nat) (cancelled : Bool) (failure : Option GatewayError) :
    Conditions :=
  ⟨.ok blockDump, .zero, .ok listed, cancelled, failure, .zero⟩

/-- The rules of the dump fail to be put in place, are put there and are found there. -/
theorem blockDump_fails_at_first :
    let cause := GatewayError.commandFailed "nft -j -f -" 1 "busy"
    let refused := blockConditions 3 false (some cause)
    let failed := tick plainSetup driftedWorld.memory refused
    let accepted := blockConditions 3 false none
    (tick plainSetup driftedWorld.memory slowQuery).attempted = none ∧
      (driftedWorld.after (step plainSetup driftedWorld.memory slowQuery)).holdings =
        driftedWorld.holdings ∧
      (tick plainSetup driftedWorld.memory (blockConditions 3 true none)).attempted = none ∧
      failed.attempted = some (.replaceChain plainSetup.chain [blockProgram]) ∧
      failed.result = .error ⟨plainSetup.chain, 1, cause⟩ ∧
      failed.memory.lastApplied ≠ .ofPrograms [blockProgram] ∧
      ∃ since ∈ failed.memory.steps plainSetup [slowQuery, accepted],
        since.PutsInPlace plainSetup (.ofPrograms [blockProgram]) := by
  intro cause refused failed accepted
  have hnonzero : Fingerprint.ofPrograms [blockProgram] ≠ .zero := by
    rw [ofPrograms_blockProgram]
    decide
  have hfetched (listed : Nat) (cancelled : Bool) (failure : Option GatewayError) :
      (blockConditions listed cancelled failure).fetched = .ok blockDump := rfl
  obtain ⟨hslow, -, -⟩ := failed_tick_is_not_forgotten plainSetup driftedWorld slowQuery
  obtain ⟨-, hslowAttempted, -, hslowHoldings, -⟩ := hslow _ rfl
  obtain ⟨-, hstopped, -⟩ :=
    failed_tick_is_not_forgotten plainSetup driftedWorld (blockConditions 3 true none)
  have hstoppedTick : (tick plainSetup driftedWorld.memory (blockConditions 3 true none)).result =
      .ok .cancelled ∧
      (tick plainSetup driftedWorld.memory (blockConditions 3 true none)).listed = true := by
    rw [tick_of_fetched (hfetched _ _ _), programsOf_blockDump]
    simp [reconcile, believed, blockConditions, hnonzero]
  obtain ⟨hstoppedAttempted, -⟩ := hstopped hstoppedTick.1 hstoppedTick.2
  obtain ⟨-, -, hrefused, -⟩ := failed_tick_is_not_forgotten plainSetup driftedWorld refused
  have hattempted : failed.attempted =
      some (.replaceChain plainSetup.chain [blockProgram]) := by
    rw [show failed = _ from tick_of_fetched (hfetched _ _ _), programsOf_blockDump]
    simp [reconcile, believed, apply, refused, blockConditions, hnonzero]
  obtain ⟨dump, programs, hdump, rfl, -, hresult, -, hunknown, hlater⟩ :=
    hrefused _ cause hattempted rfl
  obtain rfl : dump = blockDump := Except.ok.inj (hdump.symm.trans (hfetched _ _ _))
  rw [programsOf_blockDump] at hresult hunknown hlater
  have haccepted (memory : Memory) :
      (tick plainSetup memory accepted).memory.lastApplied = .ofPrograms [blockProgram] := by
    rw [tick_of_fetched (hfetched _ _ _), programsOf_blockDump]
    simp [reconcile, believed, apply, blockConditions, hnonzero]
  have hlast : (tick plainSetup (failed.memory.through plainSetup [slowQuery, accepted])
      (blockConditions 1 false none)).result = .ok (.unchanged (.ofPrograms [blockProgram])) := by
    rw [tick_of_fetched (hfetched _ _ _), programsOf_blockDump,
      show (failed.memory.through plainSetup [slowQuery, accepted]).lastApplied = _ from
        haccepted _]
    simp [reconcile, believed, blockConditions]
  exact ⟨hslowAttempted, hslowHoldings, hstoppedAttempted, hattempted, hresult, hunknown,
    hlater hnonzero _ _ _ _ (hfetched _ _ _) (by rw [programsOf_blockDump]) hlast⟩

end Reconciler

end FlowFence
