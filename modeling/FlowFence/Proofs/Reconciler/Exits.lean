import FlowFence.Reconciler.Tick

/-!
# The ends of a tick

A tick ends in one of five ways. Each is given by the conditions under which it comes about and by
all that the tick leaves: its result, what the reconciler keeps, and what was asked of the filter.
-/

namespace FlowFence

namespace Reconciler

def Outcome.ofFailure : FetchError → Outcome
  | .cancelled => .cancelled
  | _ => .fetchFailed

def queried (memory : Memory) (conditions : Conditions) : Telemetry :=
  memory.telemetry.observeQuery conditions.fetchSeconds

def compiled (setup : Setup) (memory : Memory) (conditions : Conditions) (dump : List Char) :
    Telemetry :=
  (queried memory conditions).addErrors
    ((blockResults setup.counters dump).countP BlockResult.isUnread)
    ((blockResults setup.counters dump).countP BlockResult.isUncompiled)

inductive Exit (setup : Setup) (memory : Memory) (conditions : Conditions) : Tick → Prop
  | unfetched (cause : FetchError) (fetched : conditions.fetched = .error cause) :
      Exit setup memory conditions
        ⟨.ok (.ofFailure cause), ⟨memory.lastApplied, queried memory conditions⟩, false, none⟩
  | unchanged (dump : List Char) (programs : List Program) (fetched : conditions.fetched = .ok dump)
      (hprograms : programs = programsOf setup.counters dump)
      (same : Fingerprint.ofPrograms programs =
        believed memory.lastApplied conditions.listed programs.length) :
      Exit setup memory conditions
        ⟨.ok (.unchanged (.ofPrograms programs)),
          ⟨.ofPrograms programs, compiled setup memory conditions dump⟩, true, none⟩
  | cancelled (dump : List Char) (programs : List Program) (fetched : conditions.fetched = .ok dump)
      (hprograms : programs = programsOf setup.counters dump)
      (differs : Fingerprint.ofPrograms programs ≠
        believed memory.lastApplied conditions.listed programs.length)
      (cancelled : conditions.cancelled = true) :
      Exit setup memory conditions
        ⟨.ok .cancelled, ⟨believed memory.lastApplied conditions.listed programs.length,
          compiled setup memory conditions dump⟩, true, none⟩
  | failed (dump : List Char) (programs : List Program) (cause : GatewayError)
      (fetched : conditions.fetched = .ok dump)
      (hprograms : programs = programsOf setup.counters dump)
      (differs : Fingerprint.ofPrograms programs ≠
        believed memory.lastApplied conditions.listed programs.length)
      (cancelled : conditions.cancelled = false) (commit : conditions.commitFailure = some cause) :
      Exit setup memory conditions
        ⟨.error ⟨setup.chain, programs.length, cause⟩,
          ⟨believed memory.lastApplied conditions.listed programs.length,
            (compiled setup memory conditions dump).setRoutes programs.length⟩,
          true, some (.replaceChain setup.chain programs)⟩
  | applied (dump : List Char) (programs : List Program) (fetched : conditions.fetched = .ok dump)
      (hprograms : programs = programsOf setup.counters dump)
      (differs : Fingerprint.ofPrograms programs ≠
        believed memory.lastApplied conditions.listed programs.length)
      (cancelled : conditions.cancelled = false) (commit : conditions.commitFailure = none) :
      Exit setup memory conditions
        ⟨.ok (.applied (.ofPrograms programs) programs.length),
          ⟨.ofPrograms programs, ((compiled setup memory conditions dump).setRoutes
            programs.length).observeFlush conditions.commitSeconds⟩,
          true, some (.replaceChain setup.chain programs)⟩

/-- A tick that is given a dump compares the rules of it with those in place. -/
theorem tick_of_fetched {setup : Setup} {memory : Memory} {conditions : Conditions}
    {dump : List Char} (h : conditions.fetched = .ok dump) :
    tick setup memory conditions =
      reconcile setup ⟨memory.lastApplied, compiled setup memory conditions dump⟩
        (programsOf setup.counters dump) conditions := by
  rw [tick, h]
  rfl

section Comparison

variable {setup : Setup} {memory : Memory} {conditions : Conditions} {dump : List Char}
  (hfetched : conditions.fetched = .ok dump)

include hfetched

/-- A tick whose rules are believed to be in place gives the filter nothing. -/
theorem tick_of_known (hknown : Fingerprint.ofPrograms (programsOf setup.counters dump) =
      believed memory.lastApplied conditions.listed (programsOf setup.counters dump).length) :
    let programs := programsOf setup.counters dump
    tick setup memory conditions =
      ⟨.ok (.unchanged (.ofPrograms programs)),
        ⟨.ofPrograms programs, compiled setup memory conditions dump⟩, true, none⟩ := by
  intro programs
  rw [tick_of_fetched hfetched, reconcile]
  dsimp only
  rw [if_pos hknown, ← hknown]

/-- A tick whose rules are not believed to be in place puts them there if nothing stops it. -/
theorem tick_of_unknown (hunknown : Fingerprint.ofPrograms (programsOf setup.counters dump) ≠
      believed memory.lastApplied conditions.listed (programsOf setup.counters dump).length)
    (hcancelled : conditions.cancelled = false) (hcommit : conditions.commitFailure = none) :
    let programs := programsOf setup.counters dump
    tick setup memory conditions =
      ⟨.ok (.applied (.ofPrograms programs) programs.length),
        ⟨.ofPrograms programs, ((compiled setup memory conditions dump).setRoutes
          programs.length).observeFlush conditions.commitSeconds⟩,
        true, some (.replaceChain setup.chain programs)⟩ := by
  intro programs
  rw [tick_of_fetched hfetched, reconcile]
  dsimp only
  rw [if_neg hunknown, hcancelled, if_neg Bool.false_ne_true, apply, hcommit]

end Comparison

/-- Every tick ends in one of the five ways. -/
theorem exit_tick (setup : Setup) (memory : Memory) (conditions : Conditions) :
    Exit setup memory conditions (tick setup memory conditions) := by
  cases hfetched : conditions.fetched with
  | error cause =>
      have hexit : Exit setup memory conditions _ := .unfetched cause hfetched
      cases cause <;> simpa [tick, hfetched, Outcome.ofFailure, queried] using hexit
  | ok dump =>
      rw [tick_of_fetched hfetched, reconcile]
      dsimp only
      split
      · rename_i same
        rw [← same]
        exact .unchanged dump _ hfetched rfl same
      · rename_i differs
        cases hcancelled : conditions.cancelled with
        | true => exact .cancelled dump _ hfetched rfl differs hcancelled
        | false =>
            rw [if_neg Bool.false_ne_true, apply]
            cases hcommit : conditions.commitFailure with
            | some cause => exact .failed dump _ cause hfetched rfl differs hcancelled hcommit
            | none => exact .applied dump _ hfetched rfl differs hcancelled hcommit

/-! ## Ends by their results -/

section Results

variable {setup : Setup} {memory : Memory} {conditions : Conditions} {tick : Tick}

/-- A tick that applied was given a dump and offered its rules, and nothing kept them back. -/
theorem Exit.of_applied (h : Exit setup memory conditions tick) {fingerprint : Fingerprint}
    {rules : Nat} (hresult : tick.result = .ok (.applied fingerprint rules)) :
    ∃ dump programs, conditions.fetched = .ok dump ∧ programs = programsOf setup.counters dump ∧
      fingerprint = .ofPrograms programs ∧ rules = programs.length ∧
      tick.memory.lastApplied = .ofPrograms programs ∧
      tick.attempted = some (.replaceChain setup.chain programs) ∧
      conditions.commitFailure = none := by
  cases h with
  | unfetched cause fetched => cases cause <;> cases hresult
  | unchanged dump programs fetched hprograms same => cases hresult
  | cancelled dump programs fetched hprograms differs cancelled => cases hresult
  | failed dump programs cause fetched hprograms differs cancelled commit => cases hresult
  | applied dump programs fetched hprograms differs cancelled commit =>
      cases hresult
      exact ⟨dump, programs, fetched, hprograms, rfl, rfl, rfl, rfl, commit⟩

/-- A tick that changed nothing was given a dump whose fingerprint was believed. -/
theorem Exit.of_unchanged (h : Exit setup memory conditions tick) {fingerprint : Fingerprint}
    (hresult : tick.result = .ok (.unchanged fingerprint)) :
    ∃ dump programs, conditions.fetched = .ok dump ∧ programs = programsOf setup.counters dump ∧
      fingerprint = .ofPrograms programs ∧
      Fingerprint.ofPrograms programs =
        believed memory.lastApplied conditions.listed programs.length ∧
      tick.attempted = none := by
  cases h with
  | unfetched cause fetched => cases cause <;> cases hresult
  | unchanged dump programs fetched hprograms same =>
      cases hresult
      exact ⟨dump, programs, fetched, hprograms, rfl, same, rfl⟩
  | cancelled dump programs fetched hprograms differs cancelled => cases hresult
  | failed dump programs cause fetched hprograms differs cancelled commit => cases hresult
  | applied dump programs fetched hprograms differs cancelled commit => cases hresult

/-- A tick without a dump asks nothing of the filter and keeps all but the count of queries. -/
theorem Exit.of_unfetched (h : Exit setup memory conditions tick) {cause : FetchError}
    (hfetched : conditions.fetched = .error cause) :
    tick = ⟨.ok (.ofFailure cause), ⟨memory.lastApplied, queried memory conditions⟩, false,
      none⟩ := by
  cases h with
  | unfetched other fetched =>
      obtain rfl := Except.error.inj (fetched.symm.trans hfetched)
      rfl
  | unchanged dump programs fetched => exact nomatch fetched.symm.trans hfetched
  | cancelled dump programs fetched => exact nomatch fetched.symm.trans hfetched
  | failed dump programs cause fetched => exact nomatch fetched.symm.trans hfetched
  | applied dump programs fetched => exact nomatch fetched.symm.trans hfetched

theorem Exit.of_cancelled (h : Exit setup memory conditions tick)
    (hresult : tick.result = .ok .cancelled) (hlisted : tick.listed = true) :
    ∃ rules, tick.attempted = none ∧
      tick.memory.lastApplied = believed memory.lastApplied conditions.listed rules := by
  cases h with
  | unfetched cause fetched => cases hlisted
  | unchanged dump programs fetched hprograms same => cases hresult
  | cancelled dump programs fetched hprograms differs cancelled =>
      exact ⟨programs.length, rfl, rfl⟩
  | failed dump programs cause fetched hprograms differs cancelled commit => cases hresult
  | applied dump programs fetched hprograms differs cancelled commit => cases hresult

/-- Rules are offered only after the chain has been listed and while nobody stops the daemon. -/
theorem Exit.of_attempted (h : Exit setup memory conditions tick)
    (hattempted : tick.attempted.isSome = true) :
    tick.listed = true ∧ conditions.cancelled = false := by
  cases h with
  | unfetched cause fetched => cases hattempted
  | unchanged dump programs fetched hprograms same => cases hattempted
  | cancelled dump programs fetched hprograms differs cancelled => cases hattempted
  | failed dump programs cause fetched hprograms differs cancelled commit => exact ⟨rfl, cancelled⟩
  | applied dump programs fetched hprograms differs cancelled commit => exact ⟨rfl, cancelled⟩

/-- A tick offers the rules of its dump if they are not believed to be in place. -/
theorem Exit.attempted_of_unknown (h : Exit setup memory conditions tick) {dump : List Char}
    (hfetched : conditions.fetched = .ok dump)
    (hunknown : Fingerprint.ofPrograms (programsOf setup.counters dump) ≠
      believed memory.lastApplied conditions.listed (programsOf setup.counters dump).length)
    (hcancelled : conditions.cancelled = false) :
    tick.attempted = some (.replaceChain setup.chain (programsOf setup.counters dump)) := by
  cases h with
  | unfetched cause fetched => cases fetched.symm.trans hfetched
  | unchanged other programs fetched hprograms same =>
      cases fetched.symm.trans hfetched
      exact (hunknown (hprograms ▸ same)).elim
  | cancelled other programs fetched hprograms differs cancelled =>
      cases cancelled.symm.trans hcancelled
  | failed other programs cause fetched hprograms differs cancelled commit
  | applied other programs fetched hprograms differs cancelled commit =>
      cases fetched.symm.trans hfetched
      rw [hprograms]

/-- A tick whose rules are taken applied them. -/
theorem Exit.of_accepted (h : Exit setup memory conditions tick)
    (hattempted : tick.attempted.isSome = true) (hcommit : conditions.commitFailure = none) :
    ∃ fingerprint rules, tick.result = .ok (.applied fingerprint rules) := by
  cases h with
  | unfetched cause fetched => cases hattempted
  | unchanged dump programs fetched hprograms same => cases hattempted
  | cancelled dump programs fetched hprograms differs cancelled => cases hattempted
  | failed dump programs cause fetched hprograms differs cancelled commit =>
      cases commit.symm.trans hcommit
  | applied dump programs fetched hprograms differs cancelled commit => exact ⟨_, _, rfl⟩

/-- A tick whose rules are refused ends with the cause, and they are not the ones it remembers. -/
theorem Exit.of_refused (h : Exit setup memory conditions tick) {batch : Batch}
    {cause : GatewayError} (hattempted : tick.attempted = some batch)
    (hcommit : conditions.commitFailure = some cause) :
    ∃ dump programs, conditions.fetched = .ok dump ∧ programs = programsOf setup.counters dump ∧
      batch = .replaceChain setup.chain programs ∧
      tick.result = .error ⟨setup.chain, programs.length, cause⟩ ∧
      tick.memory.lastApplied ≠ .ofPrograms programs := by
  cases h with
  | unfetched other fetched => cases hattempted
  | unchanged dump programs fetched hprograms same => cases hattempted
  | cancelled dump programs fetched hprograms differs cancelled => cases hattempted
  | failed dump programs other fetched hprograms differs cancelled commit =>
      cases hattempted
      cases commit.symm.trans hcommit
      exact ⟨dump, programs, fetched, hprograms, rfl, rfl, differs.symm⟩
  | applied dump programs fetched hprograms differs cancelled commit =>
      cases commit.symm.trans hcommit

theorem Exit.batch_of_attempted (h : Exit setup memory conditions tick) {batch : Batch}
    (hattempted : tick.attempted = some batch) :
    ∃ dump, batch = .replaceChain setup.chain (programsOf setup.counters dump) := by
  cases h with
  | unfetched cause fetched => cases hattempted
  | unchanged dump programs fetched hprograms same => cases hattempted
  | cancelled dump programs fetched hprograms differs cancelled => cases hattempted
  | failed dump programs cause fetched hprograms differs cancelled commit
  | applied dump programs fetched hprograms differs cancelled commit =>
      cases hattempted
      exact ⟨dump, by rw [hprograms]⟩

theorem Exit.cause_of_failed (h : Exit setup memory conditions tick) {cause : CommitError}
    (hresult : tick.result = .error cause) :
    tick.attempted.isSome = true ∧ conditions.commitFailure = some cause.cause := by
  cases h with
  | unfetched other fetched => cases other <;> cases hresult
  | unchanged dump programs fetched hprograms same => cases hresult
  | cancelled dump programs fetched hprograms differs cancelled => cases hresult
  | failed dump programs other fetched hprograms differs cancelled commit =>
      cases hresult
      exact ⟨rfl, commit⟩
  | applied dump programs fetched hprograms differs cancelled commit => cases hresult

/-- A tick is cancelled during its query or once the chain has been listed. -/
theorem Exit.cause_of_cancelled (h : Exit setup memory conditions tick)
    (hresult : tick.result = .ok .cancelled) :
    tick.attempted = none ∧ (conditions.fetched = .error .cancelled ∨
      tick.listed = true ∧ conditions.cancelled = true) := by
  cases h with
  | unfetched cause fetched =>
      cases cause <;> cases hresult
      exact ⟨rfl, .inl fetched⟩
  | unchanged dump programs fetched hprograms same => cases hresult
  | cancelled dump programs fetched hprograms differs cancelled =>
      exact ⟨rfl, .inr ⟨rfl, cancelled⟩⟩
  | failed dump programs cause fetched hprograms differs cancelled commit => cases hresult
  | applied dump programs fetched hprograms differs cancelled commit => cases hresult

end Results

end Reconciler

end FlowFence
