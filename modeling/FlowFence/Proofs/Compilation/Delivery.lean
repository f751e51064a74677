import FlowFence.Proofs.Compilation.Contributions
import FlowFence.Proofs.Reconciler.Failures
import FlowFence.Proofs.Route.Enforceable
import FlowFence.Proofs.Ruleset.Lifting
import FlowFence.Ruleset.Tool

/-!
# From a dump to the filter

Behind the reading of blocks nothing that the routing daemon says stands in the way of the filter:
routes with a rate have programs, the programs have statements, and a batch of them has a document.
What is left to fail is the filter tool itself.
-/

namespace FlowFence

open Reconciler (Conditions Memory Setup exit_tick tick)

variable {counters : Bool} {block : List Char} {route : Route}
  {programs : List Program} {rules : List (List Statement)}

def AreStatementsOf (rules : List (List Statement)) (programs : List Program) : Prop :=
  List.Forall₂ (fun statements program => Statement.ofProgram? program = .ok statements)
    rules programs

def Delivers (counters : Bool) (block : List Char) (statements : List Statement) : Prop :=
  ∃ program, CompilesTo counters block program ∧ Statement.ofProgram? program = .ok statements

/-! ## Programs -/

theorem compilesTo_iff {program : Program} :
    CompilesTo counters block program ↔
      ∃ route, Route.parse block = .ok route ∧ Program.ofRoute? route counters = .ok program := by
  unfold CompilesTo BlockResult.ofBlock
  cases hparse : Route.parse block with
  | error cause => simp
  | ok route =>
      cases hprogram : Program.ofRoute? route counters with
      | error cause => simp [hprogram]
      | ok found => simp [hprogram]

/-- The action alone decides if there is a program for a route that was read. -/
theorem exists_program_iff (h : Route.parse block = .ok route) (counters : Bool) :
    (∃ program, Program.ofRoute? route counters = .ok program) ↔
      route.action = .rateBytes ∨ route.action = .ratePackets := by
  rw [← Action.isRate_iff]
  constructor
  · intro hprogram
    obtain ⟨program, hprogram⟩ := hprogram
    obtain ⟨unit, hunit, -⟩ := Program.ofRoute?_eq_ok_iff.mp hprogram
    exact Action.isRate_iff_exists_rateOf.mpr ⟨unit, hunit⟩
  · intro hrate
    have hroute := Route.isEnforceable_of_parse h hrate
    obtain ⟨unit, hunit⟩ := hroute.action
    exact ⟨_, Program.ofRoute?_of_isEnforceable hroute hunit counters⟩

theorem ofRoute?_ne_negativeArgument (h : Route.parse block = .ok route) (counters : Bool)
    (argument : Int) : Program.ofRoute? route counters ≠ .error (.negativeArgument argument) := by
  intro herror
  cases hrate : route.action.isRate with
  | true =>
      obtain ⟨program, hprogram⟩ := (exists_program_iff h counters).mpr (Action.isRate_iff.mp hrate)
      cases hprogram.symm.trans herror
  | false =>
      unfold Program.ofRoute? at herror
      cases haction : route.action <;> simp [haction, Action.isRate, Program.unitOf?] at hrate herror

theorem exists_statements {program : Program} (h : CompilesTo counters block program) :
    ∃ statements, Statement.ofProgram? program = .ok statements := by
  obtain ⟨route, hparse, hprogram⟩ := compilesTo_iff.mp h
  obtain ⟨unit, hunit, -, rfl⟩ := Program.ofRoute?_eq_ok_iff.mp hprogram
  have hroute := Route.isEnforceable_of_parse hparse
    (Action.isRate_iff_exists_rateOf.mpr ⟨unit, hunit⟩)
  exact ⟨_, Statement.ofProgram?_ofRoute hroute unit counters⟩

theorem exists_rules {blocks : List (List Char)}
    (h : List.Forall₂ (CompilesTo counters) blocks programs) :
    ∃ rules, AreStatementsOf rules programs ∧ List.Forall₂ (Delivers counters) blocks rules := by
  induction h with
  | nil => exact ⟨[], .nil, .nil⟩
  | cons hblock _ ih =>
      obtain ⟨rules, hprograms, hblocks⟩ := ih
      obtain ⟨statements, hstatements⟩ := exists_statements hblock
      exact ⟨statements :: rules, .cons hstatements hprograms, .cons ⟨_, hblock, hstatements⟩ hblocks⟩

/-! ## Documents -/

theorem Document.ofBatch?_appends (chain : Chain) (h : AreStatementsOf rules programs) :
    ofBatch? (programs.map (.append chain)) = .ok (rules.map (.addRule chain)) := by
  induction h with
  | nil => rfl
  | cons hstatements _ ih =>
      simp only [List.map_cons, ofBatch?, Command.ofChange?, hstatements, Except.map, ih]

theorem Document.ofBatch?_replaceChain (chain : Chain) (h : AreStatementsOf rules programs) :
    ofBatch? (.replaceChain chain programs) =
      .ok (.flushChain chain :: rules.map (.addRule chain)) := by
  rw [Batch.replaceChain, ofBatch?, Command.ofChange?, ofBatch?_appends chain h]
  rfl

/-- There is a document for the rules of every dump. -/
theorem exists_rules_of_dump (counters : Bool) (dump : List Char) :
    ∃ rules, AreStatementsOf rules (programsOf counters dump) ∧
      ∃ compiled, compiled.Sublist (Dump.blocks dump) ∧
        List.Forall₂ (Delivers counters) compiled rules := by
  obtain ⟨compiled, hsublist, hprograms⟩ :=
    BlockResult.exists_sublist_compilesTo counters (Dump.blocks dump)
  obtain ⟨rules, hrules, hblocks⟩ := exists_rules hprograms
  exact ⟨rules, hrules, compiled, hsublist, hblocks⟩

/-! ## Commits -/

theorem Tool.output?_ne_unsupported (invocation : Invocation) (binary : String)
    (finish : Except IoError Finish) (what : String) :
    invocation.output? binary finish ≠ .error (.unsupported what) := by
  unfold Invocation.output?
  cases finish with
  | error cause => simp
  | ok finish => by_cases hcode : finish.exitCode = 0 <;> simp [hcode]

/-- What the tool answers to a batch that has a document is up to its run. -/
theorem Tool.perform?_commit {batch : Batch} {document : Document}
    (h : Document.ofBatch? batch = .ok document) (binary : String)
    (run : Invocation → Except IoError Finish) :
    Request.perform? (.commit batch) binary run =
      ((apply document).output? binary (run (apply document))).map fun _ => .done := by
  have hinvocation : Request.invocation? (.commit batch) = .ok (some (apply document)) := by
    rw [Request.invocation?, h]
  rw [Request.perform?, hinvocation]
  rfl

theorem Tool.perform?_commit_ne_unsupported {batch : Batch} {document : Document}
    (h : Document.ofBatch? batch = .ok document) (binary : String)
    (run : Invocation → Except IoError Finish) (what : String) :
    Request.perform? (.commit batch) binary run ≠ .error (.unsupported what) := by
  rw [perform?_commit h]
  intro herror
  cases houtput : (apply document).output? binary (run (apply document)) with
  | error e =>
      rw [houtput] at herror
      cases herror
      exact output?_ne_unsupported _ _ _ what houtput
  | ok output => simp [houtput, Except.map] at herror

theorem exists_document_of_attempted {setup : Setup} {memory : Memory} {conditions : Conditions}
    {batch : Batch} (h : (tick setup memory conditions).attempted = some batch) :
    ∃ document, Document.ofBatch? batch = .ok document := by
  obtain ⟨dump, hbatch⟩ := (exit_tick setup memory conditions).batch_of_attempted h
  obtain ⟨rules, hrules, -⟩ := exists_rules_of_dump setup.counters dump
  rw [hbatch]
  exact ⟨_, Document.ofBatch?_replaceChain setup.chain hrules⟩

/--
Whatever the routing daemon says: no block of a dump has a header at fault; a route that was read
has a program just if its action is a rate, and is never refused for its argument; and the rules of
a dump have a document, which flushes the chain and adds one rule for each block that has a program,
in the order of the blocks. So the commit of a tick is never refused before the tool is run, and a
tick that fails as the tool does never fails for a program that has no statements.
-/
theorem every_dump_has_a_document (counters : Bool) (chain : Chain) :
    (∀ dump, ∀ block ∈ Dump.blocks dump, ∀ line, Route.parse block ≠ .error (.header line)) ∧
    (∀ block route, Route.parse block = .ok route →
      (∀ argument, Program.ofRoute? route counters ≠ .error (.negativeArgument argument)) ∧
      ((∃ program, Program.ofRoute? route counters = .ok program) ↔
        route.action = .rateBytes ∨ route.action = .ratePackets)) ∧
    (∀ dump, ∃ document rules,
      Document.ofBatch? (.replaceChain chain (programsOf counters dump)) = .ok document ∧
      document.length = 1 + (programsOf counters dump).length ∧
      document = .flushChain chain :: rules.map (.addRule chain) ∧
      AreStatementsOf rules (programsOf counters dump) ∧
      ∃ compiled, compiled.Sublist (Dump.blocks dump) ∧
        List.Forall₂ (Delivers counters) compiled rules) ∧
    (∀ memory conditions batch, (tick ⟨chain, counters⟩ memory conditions).attempted = some batch →
      ∀ binary run what,
        Tool.Request.perform? (.commit batch) binary run ≠ .error (.unsupported what)) ∧
    ∀ memory conditions cause,
      (tick ⟨chain, counters⟩ memory conditions).result = .error cause →
      (∃ binary run, ∀ batch ∈ (tick ⟨chain, counters⟩ memory conditions).attempted,
        ∀ failure ∈ conditions.commitFailure,
          Tool.Request.perform? (.commit batch) binary run = .error failure) →
        ∀ what, cause.cause ≠ .unsupported what := by
  refine ⟨?_, ?_, ?_, ?_, ?_⟩
  · intro dump block hblock line
    exact Route.parse_ne_header (Dump.startsBlock_of_mem_blocks hblock) line
  · intro block route hparse
    exact ⟨ofRoute?_ne_negativeArgument hparse counters, exists_program_iff hparse counters⟩
  · intro dump
    obtain ⟨rules, hrules, hblocks⟩ := exists_rules_of_dump counters dump
    refine ⟨_, rules, Document.ofBatch?_replaceChain chain hrules, ?_, rfl, hrules, hblocks⟩
    rw [List.length_cons, List.length_map, List.Forall₂.length_eq hrules, Nat.add_comm]
  · intro memory conditions batch hattempted binary run
    obtain ⟨document, hdocument⟩ := exists_document_of_attempted hattempted
    exact Tool.perform?_commit_ne_unsupported hdocument binary run
  · intro memory conditions cause hresult htool what hcause
    have hexit := exit_tick ⟨chain, counters⟩ memory conditions
    obtain ⟨hsome, hfailure⟩ := hexit.cause_of_failed hresult
    obtain ⟨batch, hattempted⟩ := Option.isSome_iff_exists.mp hsome
    obtain ⟨binary, run, htool⟩ := htool
    obtain ⟨document, hdocument⟩ := exists_document_of_attempted hattempted
    apply Tool.perform?_commit_ne_unsupported hdocument binary run what
    rw [htool batch hattempted _ hfailure, hcause]

open Reconciler in
/-- The rule of a dump cannot be put in place because the tool is not there. -/
theorem blockDump_has_a_document :
    let missing := GatewayError.exec ((Tool.apply []).command "nft") .notFound
    let conditions := blockConditions 3 false (some missing)
    let failed := tick plainSetup driftedWorld.memory conditions
    let batch := Batch.replaceChain plainSetup.chain [blockProgram]
    (∀ line, Route.parse blockDump ≠ .error (.header line)) ∧
      (∃ route program, Route.parse blockDump = .ok route ∧
        Program.ofRoute? route plainSetup.counters = .ok program) ∧
      Document.ofBatch? batch = .ok [.flushChain plainSetup.chain, .addRule plainSetup.chain
        [.address ⟨.ipv4, .destination⟩ (.block (.v4 0xCB007100) 24), .drop]] ∧
      failed.result = .error ⟨plainSetup.chain, 1, missing⟩ ∧ failed.attempted = some batch ∧
      (∀ binary run what,
        Tool.Request.perform? (.commit batch) binary run ≠ .error (.unsupported what)) ∧
      ∀ what, missing ≠ .unsupported what := by
  intro missing conditions failed batch
  obtain ⟨hheader, hroute, hdocument, hcommit, hfailure⟩ :=
    every_dump_has_a_document plainSetup.counters plainSetup.chain
  have hblocks : blockDump ∈ Dump.blocks blockDump := by decide +kernel
  have haction : (Route.parse blockDump).map Route.action = .ok .rateBytes := by decide +kernel
  have hstatements : Statement.ofProgram? blockProgram =
      .ok [.address ⟨.ipv4, .destination⟩ (.block (.v4 0xCB007100) 24), .drop] := by
    decide +kernel
  have hfetched : conditions.fetched = .ok blockDump := rfl
  have hfailed : failed = ⟨.error ⟨plainSetup.chain, 1, missing⟩, failed.memory, true,
      some batch⟩ := by
    have hnonzero : Fingerprint.ofPrograms [blockProgram] ≠ .zero := by
      rw [ofPrograms_blockProgram]
      decide
    rw [show failed = _ from tick_of_fetched hfetched, programsOf_blockDump]
    simp [reconcile, believed, apply, conditions, blockConditions, hnonzero, batch]
  have hresult := congrArg Tick.result hfailed
  have hattempted := congrArg Tick.attempted hfailed
  refine ⟨hheader _ _ hblocks, ?_, ?_, hresult, hattempted, hcommit _ _ _ hattempted, ?_⟩
  · cases hparse : Route.parse blockDump with
    | error e => simp [hparse, Except.map] at haction
    | ok route =>
        rw [hparse] at haction
        obtain ⟨program, hprogram⟩ :=
          (hroute _ _ hparse).2.mpr (.inl (Except.ok.inj haction))
        exact ⟨route, program, rfl, hprogram⟩
  · obtain ⟨document, rules, hok, -, rfl, hrules, -⟩ := hdocument blockDump
    rw [programsOf_blockDump] at hok hrules
    obtain ⟨statements, _, hsame, hnil, rfl⟩ := List.forall₂_cons_right_iff.mp hrules
    obtain rfl := List.forall₂_nil_right_iff.mp hnil
    rw [hok, Except.ok.inj (hsame.symm.trans hstatements)]
    rfl
  · refine hfailure _ _ _ hresult ⟨"nft", fun _ => .error .notFound, ?_⟩
    intro found hfound failure hcause
    cases hcause
    obtain rfl := Option.some.inj (hattempted.symm.trans hfound)
    obtain ⟨document, -, hok, -⟩ := hdocument blockDump
    rw [programsOf_blockDump] at hok
    rw [Tool.perform?_commit hok]
    rfl

end FlowFence
