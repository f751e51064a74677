import FlowFence.Proofs.Reconciler.Recall
import FlowFence.Proofs.Ruleset.Batches
import FlowFence.Reconciler.History
import Mathlib.Data.List.Induction

/-!
# The chain and the fingerprint of it

Over every history of ticks, the fingerprint that the reconciler keeps is zero or that of the rules
which it put into the chain last, and those are still there. So a tick that changes nothing leaves
the chain with the rules of its own dump, as far as fingerprints tell.
-/

namespace FlowFence

namespace Reconciler

/-! ## Histories -/

section Histories

variable {setup : Setup}

theorem through_append_singleton (world : World) (past : List Encounter) (next : Encounter) :
    world.through setup (past ++ [next]) = (world.through setup past).next setup next := by
  rw [World.through, List.foldl_append]
  rfl

theorem steps_append_singleton (world : World) (past : List Encounter) (next : Encounter) :
    world.steps setup (past ++ [next]) =
      world.steps setup past ++ [(world.through setup past).step setup next] := by
  induction past generalizing world with
  | nil => rfl
  | cons first past ih =>
      rw [List.cons_append, World.steps, ih, World.steps]
      rfl

theorem lastCommitted?_append_singleton (steps : List Step) (step : Step) :
    lastCommitted? (steps ++ [step]) = step.committed?.or (lastCommitted? steps) := by
  rw [lastCommitted?, List.filterMap_append, List.getLast?_append]
  cases h : step.committed? <;> simp [lastCommitted?, h]

theorem exit_world_tick (world : World) (encounter : Encounter) :
    Exit setup world.memory (world.conditions setup encounter) (world.tick setup encounter) :=
  exit_tick _ _ _

theorem holdings_next_of_idle {world : World} {encounter : Encounter}
    (h : (world.tick setup encounter).attempted = none) :
    (world.next setup encounter).holdings = world.holdings :=
  World.holdings_after_of_none (Step.committed?_of_idle h)

theorem holdings_next_of_accepted {world : World} {encounter : Encounter} {batch : Batch}
    (h : (world.tick setup encounter).attempted = some batch)
    (hcommit : encounter.commitFailure = none) :
    (world.next setup encounter).holdings = batch.run some world.holdings :=
  World.holdings_after_of_some (Step.committed?_eq_some_iff.mpr ⟨h, hcommit⟩)

end Histories

/-! ## Batches -/

theorem run_replaceChain (holdings : Holdings Held) (chain : Chain) (programs : List Program) :
    Batch.run some holdings (.replaceChain chain programs) chain = programs.map some :=
  Batch.run_replaceChain some holdings chain programs

/-! ## The invariant -/

/-- Whether the reconciler remembers nothing, or just what the filter took last and still holds. -/
def World.InStep (setup : Setup) (queries : List (Except FetchError (List Char))) (world : World)
    (last : Option Batch) : Prop :=
  Recalls setup queries world.memory.lastApplied fun programs =>
    last = some (.replaceChain setup.chain programs) ∧
      world.holdings setup.chain = programs.map some

section Invariant

variable {setup : Setup} {queries : List (Except FetchError (List Char))} {world : World}
  {last : Option Batch}

/-- One tick keeps the invariant, however it ends. -/
theorem Exit.inStep {conditions : Conditions} {tick : Tick}
    (hexit : Exit setup world.memory conditions tick) (h : world.InStep setup queries last) :
    (world.after ⟨conditions, tick⟩).InStep setup (queries ++ [conditions.fetched])
      ((Step.mk conditions tick).committed?.or last) := by
  refine hexit.recalls h ?_ ?_
  · rintro hnone programs ⟨hlast, hheld⟩
    rw [hnone, World.holdings_after_of_none hnone]
    exact ⟨hlast, hheld⟩
  · intro programs htaken
    rw [htaken, World.holdings_after_of_some htaken]
    exact ⟨rfl, run_replaceChain _ _ _⟩

theorem inStep_through (holdings : Holdings Held) (past : List Encounter) :
    ((World.start holdings).through setup past).InStep setup (past.map (·.fetched))
      (lastCommitted? ((World.start holdings).steps setup past)) := by
  induction past using List.reverseRecOn with
  | nil => exact .inl rfl
  | append_singleton past next ih =>
      rw [through_append_singleton, steps_append_singleton, lastCommitted?_append_singleton,
        List.map_append]
      exact (exit_world_tick _ next).inStep ih

/-- A rule set is put in place if nothing is remembered and nothing keeps it from that. -/
theorem result_of_forgotten {encounter : Encounter} {dump : List Char}
    (hfetched : encounter.fetched = .ok dump) (hforgotten : world.memory.lastApplied = .zero)
    (hnonzero : Fingerprint.ofPrograms (programsOf setup.counters dump) ≠ .zero)
    (hcancelled : encounter.cancelled = false) (hcommit : encounter.commitFailure = none) :
    (world.tick setup encounter).result = .ok (.applied
      (.ofPrograms (programsOf setup.counters dump)) (programsOf setup.counters dump).length) := by
  have hzero (listed : Except GatewayError Nat) (rules : Nat) :
      believed world.memory.lastApplied listed rules = .zero := by
    rcases believed_eq_or world.memory.lastApplied listed rules with hkept | hzero
    · exact hkept.trans hforgotten
    · exact hzero
  have hunknown : Fingerprint.ofPrograms (programsOf setup.counters dump) ≠
      believed world.memory.lastApplied (world.conditions setup encounter).listed
        (programsOf setup.counters dump).length :=
    fun hsame => hnonzero (hsame.trans (hzero _ _))
  rw [World.tick, tick_of_unknown hfetched hunknown hcancelled hcommit]

theorem lastApplied_of_applied {encounter : Encounter} {fingerprint : Fingerprint} {rules : Nat}
    (h : (world.tick setup encounter).result = .ok (.applied fingerprint rules)) :
    (world.next setup encounter).memory.lastApplied = fingerprint := by
  have hexit : Exit setup _ _ _ := exit_world_tick world encounter
  obtain ⟨dump, programs, -, -, rfl, -, hmemory, -⟩ := hexit.of_applied h
  exact hmemory

/-- Nothing is put in place if the rule set is remembered and the chain holds as many rules. -/
theorem result_of_remembered {encounter : Encounter} {dump : List Char}
    (hfetched : encounter.fetched = .ok dump)
    (hremembered : world.memory.lastApplied = .ofPrograms (programsOf setup.counters dump))
    (hlist : encounter.listFailure = none)
    (hcount : (world.holdings setup.chain).length = (programsOf setup.counters dump).length) :
    (world.tick setup encounter).result =
      .ok (.unchanged (.ofPrograms (programsOf setup.counters dump))) := by
  have hbelieved : believed world.memory.lastApplied (world.conditions setup encounter).listed
      (programsOf setup.counters dump).length =
        .ofPrograms (programsOf setup.counters dump) := by
    have hlisted : (world.conditions setup encounter).listed =
        .ok (world.holdings setup.chain).length := by
      simp [World.conditions, World.report, hlist]
    rw [hlisted, believed, if_pos hcount, hremembered]
  rw [World.tick, tick_of_known hfetched hbelieved.symm]

end Invariant

/--
Over every history of ticks, whatever they meet and whatever the chains hold at the start: the
fingerprint kept is zero or that of the rules which the filter took last; after a tick that applied,
the chain holds the rules of the tick's dump, in order and as many as reported; and after a tick
that changed nothing, if no two messages digested so far have one digest and none has the digest
zero, it holds rules of the same bytes as those of the tick's dump, place by place.
-/
theorem chain_in_step (setup : Setup) (holdings : Holdings Held) (past : List Encounter)
    (next : Encounter) :
    let world := (World.start holdings).through setup past
    let steps := (World.start holdings).steps setup past
    let messages := ((past ++ [next]).map (·.fetched)).flatMap (digested setup)
    (world.memory.lastApplied = .zero ∨
      ∃ programs, lastCommitted? steps = some (.replaceChain setup.chain programs) ∧
        world.memory.lastApplied = .ofPrograms programs) ∧
    (∀ fingerprint rules,
      (world.tick setup next).result = .ok (.applied fingerprint rules) →
        ∃ dump, next.fetched = .ok dump ∧
          (world.next setup next).holdings setup.chain =
            (programsOf setup.counters dump).map some ∧
          rules = (programsOf setup.counters dump).length) ∧
    (∀ fingerprint, (world.tick setup next).result = .ok (.unchanged fingerprint) →
      Md5.CollisionFree messages →
      (∀ message ∈ messages, Md5.digest message ≠ Fingerprint.zero.bytes) →
        ∃ dump installed, next.fetched = .ok dump ∧
          (world.next setup next).holdings setup.chain = installed.map some ∧
          installed.length = (programsOf setup.counters dump).length ∧
          List.Forall₂ Fingerprint.SameBytes installed (programsOf setup.counters dump)) := by
  intro world steps messages
  have hstep : world.InStep setup (past.map (·.fetched)) (lastCommitted? steps) :=
    inStep_through holdings past
  have hexit : Exit setup _ _ _ := exit_world_tick world next
  refine ⟨?_, ?_, ?_⟩
  · exact hstep.imp_right fun ⟨programs, hremembered, _, hlast, _⟩ =>
      ⟨programs, hlast, hremembered⟩
  · intro fingerprint rules hresult
    obtain ⟨dump, programs, fetched, rfl, -, hrules, -, hattempted, hcommit⟩ :=
      hexit.of_applied hresult
    refine ⟨dump, fetched, ?_, hrules⟩
    rw [holdings_next_of_accepted hattempted hcommit]
    exact run_replaceChain _ _ _
  · intro fingerprint hresult hfree hnonzero
    have hmessages : messages =
        (past.map (·.fetched) ++ [next.fetched]).flatMap (digested setup) := by
      rw [← List.map_singleton, ← List.map_append]
    rw [hmessages] at hfree hnonzero
    obtain ⟨dump, installed, fetched, hidle, ⟨-, hheld⟩, hsame⟩ :=
      hexit.exists_recalled hresult hstep hfree hnonzero
    refine ⟨dump, installed, fetched, ?_, hsame.length_eq, hsame⟩
    rw [holdings_next_of_idle hidle]
    exact hheld

/-! ## A history -/

def plainSetup : Setup :=
  ⟨⟨"filter", "flowspec"⟩, false⟩

@[irreducible] def blockDump : List Char :=
  ("flow4 { dst 203.0.113.0/24; } [upstream 2024-05-01 from 192.0.2.1]\n" ++
    "\tBGP.ext_community: (generic, 0x80060000, 0x0)\n").toList

def blockProgram : Program :=
  [.load .network 16 4 1, .mask 1 1 4 [255, 255, 255, 0] [0, 0, 0, 0],
    .compare 1 [203, 0, 113, 0], .drop]

def blockEncounter : Encounter :=
  ⟨.ok blockDump, .zero, none, false, none, .zero⟩

theorem programsOf_blockDump : programsOf plainSetup.counters blockDump = [blockProgram] := by
  decide +kernel

theorem sumOf_blockProgram : Fingerprint.sumOf blockProgram =
    [114, 47, 137, 68, 69, 130, 149, 150, 13, 68, 175, 238, 140, 160, 19, 207] := by
  rw [Fingerprint.sumOf, Fingerprint.sortedBytes_eq_insertionSort]
  decide +kernel

theorem ofPrograms_blockProgram : Fingerprint.ofPrograms [blockProgram] =
    ⟨[151, 221, 186, 0, 66, 166, 236, 239, 93, 23, 238, 81, 226, 102, 75, 137]⟩ := by
  rw [Fingerprint.ofPrograms, List.map_singleton, sumOf_blockProgram]
  decide +kernel

theorem blockMessages_eq :
    (([blockEncounter] ++ [blockEncounter]).map (·.fetched)).flatMap (digested plainSetup) =
      Fingerprint.messages [blockProgram] ++ Fingerprint.messages [blockProgram] := by
  have hfetched : blockEncounter.fetched = .ok blockDump := rfl
  simp [digested, hfetched, programsOf_blockDump]

theorem digest_blockMessages {message : List UInt8}
    (h : message ∈ Fingerprint.messages [blockProgram]) :
    message = Utf8.encode (Fingerprint.sumsText ([blockProgram].map Fingerprint.sumOf)) ∧
        Md5.digest message = (Fingerprint.ofPrograms [blockProgram]).bytes ∨
      message = Fingerprint.sortedBytes blockProgram ∧
        Md5.digest message = Fingerprint.sumOf blockProgram := by
  rcases List.mem_cons.mp h with rfl | h
  · exact .inl ⟨rfl, rfl⟩
  · obtain rfl := List.mem_singleton.mp h
    exact .inr ⟨rfl, rfl⟩

theorem collisionFree_blockMessages :
    Md5.CollisionFree
      ((([blockEncounter] ++ [blockEncounter]).map (·.fetched)).flatMap (digested plainSetup)) := by
  have hdiffer : (Fingerprint.ofPrograms [blockProgram]).bytes ≠
      Fingerprint.sumOf blockProgram := by
    rw [ofPrograms_blockProgram, sumOf_blockProgram]
    decide
  rw [blockMessages_eq]
  exact (Md5.collisionFree_pair hdiffer).subset (by simp [Fingerprint.messages])

theorem digest_blockMessages_ne_zero :
    ∀ message ∈
      (([blockEncounter] ++ [blockEncounter]).map (·.fetched)).flatMap (digested plainSetup),
        Md5.digest message ≠ Fingerprint.zero.bytes := by
  rw [blockMessages_eq]
  intro message hmessage
  rw [List.mem_append, or_self] at hmessage
  rcases digest_blockMessages hmessage with ⟨-, hdigest⟩ | ⟨-, hdigest⟩
  · rw [hdigest, ofPrograms_blockProgram]
    decide
  · rw [hdigest, sumOf_blockProgram]
    decide

/-- The dump is put in place by the first tick and found in place by the second one. -/
theorem blockDump_stays_in_step :
    let first := World.start .empty
    let second := first.next plainSetup blockEncounter
    let fingerprint := Fingerprint.ofPrograms [blockProgram]
    (first.tick plainSetup blockEncounter).result = .ok (.applied fingerprint 1) ∧
      second.holdings plainSetup.chain = [some blockProgram] ∧
      (∃ programs, lastCommitted? (first.steps plainSetup [blockEncounter]) =
          some (.replaceChain plainSetup.chain programs) ∧
        Fingerprint.ofPrograms programs = fingerprint) ∧
      (second.tick plainSetup blockEncounter).result = .ok (.unchanged fingerprint) ∧
      ∃ installed, (second.next plainSetup blockEncounter).holdings plainSetup.chain =
          installed.map some ∧
        List.Forall₂ Fingerprint.SameBytes installed [blockProgram] := by
  intro first second fingerprint
  have hsecondWorld : (first.through plainSetup [blockEncounter]) = second := rfl
  have hfetched : blockEncounter.fetched = .ok blockDump := rfl
  have hnonzero : fingerprint ≠ .zero := by
    change Fingerprint.ofPrograms [blockProgram] ≠ .zero
    rw [ofPrograms_blockProgram]
    decide
  have hfirst : (first.tick plainSetup blockEncounter).result = .ok (.applied fingerprint 1) := by
    rw [result_of_forgotten hfetched rfl (by rwa [programsOf_blockDump]) rfl rfl,
      programsOf_blockDump]
    rfl
  obtain ⟨-, happlied, -⟩ := chain_in_step plainSetup .empty [] blockEncounter
  obtain ⟨dump, hdump, hheld, -⟩ := happlied _ _ hfirst
  have hsame : dump = blockDump := Except.ok.inj (hdump.symm.trans hfetched)
  rw [hsame, programsOf_blockDump] at hheld
  have hheld' : second.holdings plainSetup.chain = [some blockProgram] := hheld
  have hremembered : second.memory.lastApplied = fingerprint := lastApplied_of_applied hfirst
  have hsecond : (second.tick plainSetup blockEncounter).result = .ok (.unchanged fingerprint) := by
    rw [result_of_remembered hfetched (by rw [hremembered, programsOf_blockDump]) rfl
      (by rw [hheld', programsOf_blockDump]; rfl), programsOf_blockDump]
  obtain ⟨hlast, -, hunchanged⟩ := chain_in_step plainSetup .empty [blockEncounter] blockEncounter
  rw [hsecondWorld] at hlast hunchanged
  obtain ⟨programs, hcommitted, hprograms⟩ :=
    hlast.resolve_left fun hzero => hnonzero (hremembered.symm.trans hzero)
  obtain ⟨dump, installed, hdump, hinstalled, -, hbytes⟩ := hunchanged _ hsecond
    collisionFree_blockMessages digest_blockMessages_ne_zero
  have hagain : dump = blockDump := Except.ok.inj (hdump.symm.trans hfetched)
  rw [hagain, programsOf_blockDump] at hbytes
  exact ⟨hfirst, hheld', ⟨programs, hcommitted, hprograms.symm.trans hremembered⟩, hsecond,
    installed, hinstalled, hbytes⟩

end Reconciler

end FlowFence
