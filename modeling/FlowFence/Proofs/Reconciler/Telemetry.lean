import FlowFence.Proofs.Reconciler.Failures
import FlowFence.Proofs.Reconciler.Shutdown
import FlowFence.Proofs.Reconciler.Spacing

/-!
# What the telemetry says about ticks

Every tick counts its query, every tick with a dump lists the chain, and every tick that puts rules
in place counts the time of that. The gauge of routes is written only when rules are offered to the
filter. It is right all the same as long as the filter takes them: it then goes with the fingerprint
that is remembered.
-/

namespace FlowFence

namespace Reconciler

variable {setup : Setup} {memory : Memory} {conditions : Conditions} {done : Tick}

/-! ## Counts -/

theorem Exit.total_queries (h : Exit setup memory conditions done) :
    done.memory.telemetry.queries.total = memory.telemetry.queries.total + 1 := by
  cases h <;> rfl

theorem Exit.listed_eq (h : Exit setup memory conditions done) :
    done.listed = conditions.fetched.isOk := by
  cases h with
  | unfetched cause fetched => rw [fetched]; rfl
  | unchanged dump programs fetched | cancelled dump programs fetched
  | failed dump programs cause fetched | applied dump programs fetched => rw [fetched]; rfl

theorem Exit.total_flushes (h : Exit setup memory conditions done) :
    done.memory.telemetry.flushes.total = memory.telemetry.flushes.total +
      if (Step.mk conditions done).committed?.isSome then 1 else 0 := by
  cases h with
  | unfetched | unchanged | cancelled =>
      rw [Step.committed?_of_idle rfl]
      rfl
  | failed dump programs cause fetched hprograms differs cancelled commit =>
      rw [Step.committed?_of_failure commit]
      rfl
  | applied dump programs fetched hprograms differs cancelled commit =>
      rw [Step.committed?_eq_some_iff.mpr ⟨rfl, commit⟩]
      rfl

theorem Exit.routes_of_idle (h : Exit setup memory conditions done)
    (hidle : done.attempted = none) :
    done.memory.telemetry.routes = memory.telemetry.routes := by
  cases h with
  | unfetched | unchanged | cancelled => rfl
  | failed | applied => cases hidle

/-- The gauge is written before it shows whether the filter takes the rules. -/
theorem Exit.routes_of_attempted (h : Exit setup memory conditions done) {batch : Batch}
    (hattempted : done.attempted = some batch) :
    done.memory.telemetry.routes = batch.programs.length := by
  cases h with
  | unfetched | unchanged | cancelled => cases hattempted
  | failed | applied =>
      cases hattempted
      rw [Batch.programs_replaceChain]
      rfl

namespace Memory

theorem through_append (setup : Setup) (memory : Memory) (past later : List Conditions) :
    memory.through setup (past ++ later) = (memory.through setup past).through setup later :=
  List.foldl_append

theorem steps_append (setup : Setup) (memory : Memory) (past later : List Conditions) :
    memory.steps setup (past ++ later) =
      memory.steps setup past ++ (memory.through setup past).steps setup later := by
  induction past generalizing memory with
  | nil => rfl
  | cons met past ih =>
      rw [List.cons_append, steps, ih, steps]
      rfl

theorem length_steps (setup : Setup) (memory : Memory) (history : List Conditions) :
    (memory.steps setup history).length = history.length := by
  induction history generalizing memory with
  | nil => rfl
  | cons met history ih => rw [steps, List.length_cons, ih, List.length_cons]

theorem total_queries_through (setup : Setup) (memory : Memory) (history : List Conditions) :
    (memory.through setup history).telemetry.queries.total =
      memory.telemetry.queries.total + history.length := by
  induction history generalizing memory with
  | nil => rfl
  | cons met history ih =>
      have hstep := (exit_tick setup memory met).total_queries
      have hrest := ih (tick setup memory met).memory
      rw [hstep] at hrest
      rw [List.length_cons, Nat.add_comm history.length 1, ← Nat.add_assoc]
      exact hrest

theorem countP_listed_steps (setup : Setup) (memory : Memory) (history : List Conditions) :
    (memory.steps setup history).countP (·.tick.listed) = history.countP (·.fetched.isOk) := by
  induction history generalizing memory with
  | nil => rfl
  | cons met history ih =>
      have hlisted : (step setup memory met).tick.listed = met.fetched.isOk :=
        (exit_tick setup memory met).listed_eq
      rw [steps, List.countP_cons, List.countP_cons, ih, hlisted]

theorem total_flushes_through (setup : Setup) (memory : Memory) (history : List Conditions) :
    (memory.through setup history).telemetry.flushes.total =
      memory.telemetry.flushes.total +
        (memory.steps setup history).countP (·.committed?.isSome) := by
  induction history generalizing memory with
  | nil => rfl
  | cons met history ih =>
      have hstep := (exit_tick setup memory met).total_flushes
      have hrest := ih (tick setup memory met).memory
      rw [hstep, Nat.add_assoc, Nat.add_comm (ite _ _ _)] at hrest
      rw [steps, List.countP_cons]
      exact hrest

end Memory

/-! ## The gauge -/

/-- Whether the gauge says how many the rules are that are remembered, if any are. -/
def Memory.GaugeAgrees (setup : Setup) (queries : List (Except FetchError (List Char)))
    (memory : Memory) : Prop :=
  Recalls setup queries memory.lastApplied fun programs =>
    memory.telemetry.routes = programs.length

/-- One tick keeps the gauge right unless the filter refuses its rules. -/
theorem Memory.GaugeAgrees.tick {queries : List (Except FetchError (List Char))}
    (h : memory.GaugeAgrees setup queries) (hexit : Exit setup memory conditions done)
    (htaken : done.attempted.isSome = true → conditions.commitFailure = none) :
    done.memory.GaugeAgrees setup (queries ++ [conditions.fetched]) := by
  refine hexit.recalls h ?_ ?_
  · intro hnone programs hroutes
    -- the gauge would say how many rules were refused, while others may still be remembered
    have hidle : done.attempted = none := by
      by_contra hoffered
      have hgoes := htaken (Option.isSome_iff_ne_none.mpr hoffered)
      exact hoffered ((Step.committed?_of_accepted hgoes).symm.trans hnone)
    exact (hexit.routes_of_idle hidle).trans hroutes
  · intro programs hcommitted
    have hattempted := (Step.committed?_eq_some_iff.mp hcommitted).1
    rw [hexit.routes_of_attempted hattempted, Batch.programs_replaceChain]

theorem gaugeAgrees_through {past : List Conditions}
    (htaken : ∀ step ∈ Memory.initial.steps setup past,
      step.tick.attempted.isSome = true → step.met.commitFailure = none) :
    (Memory.initial.through setup past).GaugeAgrees setup (past.map (·.fetched)) := by
  induction past using List.reverseRecOn with
  | nil => exact .inl rfl
  | append_singleton past next ih =>
      rw [Memory.steps_append] at htaken
      rw [Memory.through_append, List.map_append]
      have hbefore := ih fun step hstep => htaken step (List.mem_append_left _ hstep)
      exact hbefore.tick (exit_tick _ _ _) (htaken _ (List.mem_append_right _ List.mem_cons_self))

/-! ## Runs -/

/-- Whether a run is made of the ticks that follow one another from a memory on as they meet it. -/
structure Run.Goes (setup : Setup) (memory : Memory) (run : Run) : Prop where
  steps : run.records.map (·.toStep) = memory.steps setup (run.records.map (·.met))
  memory : run.world.memory = memory.through setup (run.records.map (·.met))

namespace Run.Goes

theorem none (setup : Setup) (world : World) (ending : Ending) (endedAt : Nat) :
    Run.Goes setup world.memory ⟨[], ending, endedAt, world⟩ :=
  ⟨rfl, rfl⟩

theorem cons {plan : Plan} {position : Position} {rest : Run}
    (h : rest.Goes plan.setup (position.next plan).world.memory) :
    Run.Goes plan.setup position.world.memory
      { rest with records := position.record plan :: rest.records } :=
  ⟨congrArg ((position.record plan).toStep :: ·) h.steps, h.memory⟩

end Run.Goes

theorem goes_runFrom (plan : Plan) (fuel : Nat) (position : Position) :
    (runFrom plan fuel position).Goes plan.setup position.world.memory := by
  induction fuel generalizing position with
  | zero => exact .none plan.setup position.world _ _
  | succ fuel ih =>
      have hadvance := advance_runFrom plan fuel position
      generalize runFrom plan (fuel + 1) position = run at hadvance
      cases hadvance with
      | stopped stops => exact .none plan.setup position.world _ _
      | failed cause starts result =>
          exact (Run.Goes.none plan.setup (position.next plan).world _ _).cons
      | cancelled starts result =>
          exact (Run.Goes.none plan.setup (position.next plan).world _ _).cons
      | continued outcome rest starts result goesOn hrest =>
          subst hrest
          exact (ih (position.next plan)).cons

/-- The filter has taken what it was given by all ticks of a run but the last one. -/
theorem taken_of_followed {plan : Plan} {fuel : Nat} {position : Position}
    {past later : List Record} {last : Record}
    (h : (runFrom plan fuel position).records = past ++ last :: later) {record : Record}
    (hrecord : record ∈ past) (hattempted : record.tick.attempted.isSome = true) :
    record.met.commitFailure = none := by
  obtain ⟨i, hi⟩ := List.getElem?_of_mem hrecord
  have hshort : i < past.length := (List.getElem?_eq_some_iff.mp hi).1
  have hrun : (runFrom plan fuel position).records[i]? = some record := by
    rw [h, List.getElem?_append_left hshort, hi]
  by_contra hrefused
  obtain ⟨cause, hcause⟩ := Option.ne_none_iff_exists'.mp hrefused
  obtain ⟨rules, -, hlast, -⟩ := last_of_refused hrun hattempted hcause
  have hlength := congrArg List.length h
  rw [List.length_append, List.length_cons] at hlength
  omega

/--
Over every history of ticks from the start: as many queries are counted as there were ticks, the
chain is listed in just the ticks that were given a dump, and as many times of putting rules in
place are counted as the filter took rules. As long as the filter has refused no rules, the gauge of
routes says after every tick that applied how many rules were compiled from its dump, and so it does
after every tick that changed nothing, if no two messages digested so far have one digest and none
has the digest zero. The ticks of every run are such a history, in which the filter can refuse only
the rules of the last.
-/
theorem telemetry_agrees_with_ticks (setup : Setup) :
    (∀ history,
      let steps := Memory.initial.steps setup history
      let telemetry := (Memory.initial.through setup history).telemetry
      steps.length = history.length ∧ telemetry.queries.total = steps.length ∧
        steps.countP (·.tick.listed) = history.countP (·.fetched.isOk) ∧
        telemetry.flushes.total = steps.countP (·.committed?.isSome)) ∧
    (∀ past next,
      (∀ step ∈ Memory.initial.steps setup past,
        step.tick.attempted.isSome = true → step.met.commitFailure = none) →
      let done := tick setup (Memory.initial.through setup past) next
      let messages := ((past ++ [next]).map (·.fetched)).flatMap (digested setup)
      (∀ fingerprint rules, done.result = .ok (.applied fingerprint rules) →
        ∃ dump, next.fetched = .ok dump ∧
          done.memory.telemetry.routes = (programsOf setup.counters dump).length) ∧
      ∀ fingerprint, done.result = .ok (.unchanged fingerprint) →
        Md5.CollisionFree messages →
        (∀ message ∈ messages, Md5.digest message ≠ Fingerprint.zero.bytes) →
          ∃ dump, next.fetched = .ok dump ∧
            done.memory.telemetry.routes = (programsOf setup.counters dump).length) ∧
    ∀ (plan : Plan) fuel holdings,
      let finished := run plan fuel (.start holdings)
      let history := finished.records.map (·.met)
      finished.records.map (·.toStep) = Memory.initial.steps plan.setup history ∧
        finished.world.memory = Memory.initial.through plan.setup history ∧
        (∀ i record, finished.records[i]? = some record →
          record.met.fetched = (fetch plan.interval plan.cancelAt record.start
            (plan.circumstances i)).1 ∧
          record.met.commitFailure = (plan.circumstances i).commitFailure) ∧
        ∀ past last later, finished.records = past ++ last :: later →
          ∀ record ∈ past, record.tick.attempted.isSome = true →
            record.met.commitFailure = none := by
  refine ⟨?_, ?_, ?_⟩
  · intro history steps telemetry
    have hlength : steps.length = history.length := Memory.length_steps setup .initial history
    have hqueries := Memory.total_queries_through setup .initial history
    have hflushes := Memory.total_flushes_through setup .initial history
    refine ⟨hlength, ?_, Memory.countP_listed_steps setup .initial history, ?_⟩
    · rw [hlength]
      exact hqueries.trans (Nat.zero_add _)
    · exact hflushes.trans (Nat.zero_add _)
  · intro past next htaken done messages
    have hagrees := gaugeAgrees_through htaken
    have hexit : Exit setup _ next done := exit_tick _ _ _
    refine ⟨?_, ?_⟩
    · intro fingerprint rules hresult
      obtain ⟨dump, _, fetched, rfl, -, -, -, hattempted, -⟩ := hexit.of_applied hresult
      refine ⟨dump, fetched, ?_⟩
      rw [hexit.routes_of_attempted hattempted, Batch.programs_replaceChain]
    · intro fingerprint hresult hfree hnonzero
      have hmessages : messages =
          (past.map (·.fetched) ++ [next.fetched]).flatMap (digested setup) := by
        rw [← List.map_singleton, ← List.map_append]
      rw [hmessages] at hfree hnonzero
      obtain ⟨dump, programs, fetched, hidle, hroutes, hsame⟩ :=
        hexit.exists_recalled hresult hagrees hfree hnonzero
      refine ⟨dump, fetched, ?_⟩
      rw [hexit.routes_of_idle hidle, hroutes, hsame.length_eq]
  · intro plan fuel holdings finished history
    have hgoes : finished.Goes plan.setup .initial :=
      goes_runFrom plan fuel ⟨.initial, .start holdings⟩
    refine ⟨hgoes.steps, hgoes.memory, ?_, ?_⟩
    · exact fun i record => met_run
    · exact fun past last later hrecords record => taken_of_followed hrecords

/-- The rule of a dump is put in place by one tick and found in place by the next. -/
theorem blockDump_is_counted :
    let first := blockConditions 0 false none
    let second := blockConditions 1 false none
    let finished := run (laggingPlan 0) 2 .initial
    let telemetry := (Memory.initial.through plainSetup [first, second]).telemetry
    (tick plainSetup .initial first).result = .ok (.applied (.ofPrograms [blockProgram]) 1) ∧
      (tick plainSetup (Memory.initial.through plainSetup [first]) second).result =
        .ok (.unchanged (.ofPrograms [blockProgram])) ∧
      telemetry.queries.total = 2 ∧ telemetry.flushes.total = 1 ∧ telemetry.routes = 1 ∧
      ∃ earlier later, finished.records = [earlier, later] ∧
        finished.records.map (·.toStep) =
          Memory.initial.steps (laggingPlan 0).setup [earlier.met, later.met] ∧
        (earlier.tick.attempted.isSome = true → earlier.met.commitFailure = none) := by
  intro first second finished telemetry
  obtain ⟨hcounts, hgauge, hruns⟩ := telemetry_agrees_with_ticks plainSetup
  have hfetched (listed : Nat) : (blockConditions listed false none).fetched = .ok blockDump := rfl
  have hfirst : (tick plainSetup .initial first).result =
      .ok (.applied (.ofPrograms [blockProgram]) 1) := by
    have hnonzero : Fingerprint.ofPrograms [blockProgram] ≠ .zero := by
      rw [ofPrograms_blockProgram]
      decide
    rw [tick_of_fetched (hfetched 0), programsOf_blockDump]
    simp [reconcile, believed, apply, blockConditions, hnonzero]
  obtain ⟨_, _, -, -, hfingerprint, -, hmemory, hattempted, -⟩ :=
    (exit_tick plainSetup .initial first).of_applied hfirst
  have hremembered : (Memory.initial.through plainSetup [first]).lastApplied =
      .ofPrograms [blockProgram] := hmemory.trans hfingerprint.symm
  have hsecond : (tick plainSetup (Memory.initial.through plainSetup [first]) second).result =
      .ok (.unchanged (.ofPrograms [blockProgram])) := by
    rw [tick_of_fetched (hfetched 1), programsOf_blockDump, hremembered]
    simp [reconcile, believed, blockConditions]
  obtain ⟨_, _, -, -, -, -, hidle⟩ := (exit_tick plainSetup _ second).of_unchanged hsecond
  have hsteps : Memory.initial.steps plainSetup [first, second] =
      [step plainSetup .initial first,
        step plainSetup (Memory.initial.through plainSetup [first]) second] := rfl
  have hcommitted : (step plainSetup .initial first).committed? = some _ :=
    Step.committed?_eq_some_iff.mpr ⟨hattempted, rfl⟩
  have hnone : (step plainSetup (Memory.initial.through plainSetup [first]) second).committed? =
      none := Step.committed?_of_idle hidle
  have htaken : ∀ step ∈ Memory.initial.steps plainSetup [first],
      step.tick.attempted.isSome = true → step.met.commitFailure = none := by
    intro step hstep _
    obtain rfl := List.mem_singleton.mp hstep
    rfl
  obtain ⟨-, hqueries, -, hflushes⟩ := hcounts [first, second]
  obtain ⟨-, hunchanged⟩ := hgauge [first] second htaken
  obtain ⟨dump, hdump, hroutes⟩ :=
    hunchanged _ hsecond collisionFree_blockMessages digest_blockMessages_ne_zero
  obtain rfl : dump = blockDump := Except.ok.inj (hdump.symm.trans (hfetched 1))
  rw [programsOf_blockDump] at hroutes
  obtain ⟨hrun, -, -, hall⟩ := hruns (laggingPlan 0) 2 .empty
  have hlength : finished.records.length = 2 := by
    have hreply (i : Nat) : ((laggingPlan 0).circumstances i).reply ≠ .error .cancelled := by
      intro hcancelled
      cases hcancelled
    exact length_records rfl (fun _ => rfl) hreply 2
  obtain ⟨earlier, later, hrecords⟩ := List.length_eq_two.mp hlength
  refine ⟨hfirst, hsecond, hqueries, ?_, hroutes, earlier, later, hrecords, ?_, ?_⟩
  · rw [hsteps] at hflushes
    simpa [List.countP_cons, hcommitted, hnone] using hflushes
  · have hmet : finished.records.map (·.met) = [earlier.met, later.met] := by
      rw [hrecords]
      rfl
    exact hrun.trans (congrArg (Memory.initial.steps _) hmet)
  · exact hall [earlier] later [] hrecords _ List.mem_cons_self

end Reconciler

end FlowFence
