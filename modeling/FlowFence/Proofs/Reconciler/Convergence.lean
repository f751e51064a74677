import FlowFence.Proofs.Reconciler.Synchrony

/-!
# Convergence

One tick that nothing interrupts repairs the chain, whatever the reconciler keeps and whatever
others have left in the chain. From then on, ticks on the same dump have nothing to do.
-/

namespace FlowFence

namespace Reconciler

variable {setup : Setup} {world : World} {encounter : Encounter} {dump : List Char}
  {programs : List Program}

/--
Whether a tick gets a dump in time, is not told to stop, and can put its rules in place. The chain
may fail to be listed.
-/
structure Encounter.Uninterrupted (encounter : Encounter) (dump : List Char) : Prop where
  fetched : encounter.fetched = .ok dump
  cancelled : encounter.cancelled = false
  commit : encounter.commitFailure = none

structure World.Settled (setup : Setup) (programs : List Program) (world : World) : Prop where
  remembered : world.memory.lastApplied = .ofPrograms programs
  count : (world.holdings setup.chain).length = programs.length

/-! ## One tick -/

theorem believed_eq_iff {lastApplied fingerprint : Fingerprint} {listed : Except GatewayError Nat}
    {rules : Nat} (hnonzero : fingerprint ≠ .zero) :
    fingerprint = believed lastApplied listed rules ↔
      listed = .ok rules ∧ lastApplied = fingerprint := by
  cases listed with
  | error cause => simp [believed, hnonzero]
  | ok count =>
      by_cases hcount : count = rules
      · simp [believed, hcount, eq_comm]
      · simp [believed, hcount, hnonzero]

theorem conditions_listed_eq_ok_iff {count : Nat} :
    (world.conditions setup encounter).listed = .ok count ↔
      encounter.listFailure = none ∧ (world.holdings setup.chain).length = count := by
  cases hlist : encounter.listFailure <;> simp [World.conditions, World.report, hlist]

/-- An uninterrupted tick does nothing just when the rules are remembered and counted. -/
theorem tick_uninterrupted (world : World) (h : encounter.Uninterrupted dump)
    (hnonzero : Fingerprint.ofPrograms (programsOf setup.counters dump) ≠ .zero) :
    let programs := programsOf setup.counters dump
    let done := world.tick setup encounter
    done.memory.lastApplied = .ofPrograms programs ∧
      (encounter.listFailure = none ∧ world.Settled setup programs ∧
          done.result = .ok (.unchanged (.ofPrograms programs)) ∧ done.attempted = none ∨
        ¬ (encounter.listFailure = none ∧ world.Settled setup programs) ∧
          done.result = .ok (.applied (.ofPrograms programs) programs.length) ∧
          done.attempted = some (.replaceChain setup.chain programs)) := by
  intro programs done
  have hknown : Fingerprint.ofPrograms programs = believed world.memory.lastApplied
      (world.conditions setup encounter).listed programs.length ↔
        encounter.listFailure = none ∧ world.Settled setup programs := by
    rw [believed_eq_iff hnonzero, conditions_listed_eq_ok_iff]
    constructor
    · rintro ⟨⟨hlist, hcount⟩, hremembered⟩
      exact ⟨hlist, hremembered, hcount⟩
    · rintro ⟨hlist, hremembered, hcount⟩
      exact ⟨⟨hlist, hcount⟩, hremembered⟩
  by_cases hsettled : encounter.listFailure = none ∧ world.Settled setup programs
  · have htick := tick_of_known h.fetched (hknown.mpr hsettled)
    rw [show done = _ from htick]
    exact ⟨rfl, .inl ⟨hsettled.1, hsettled.2, rfl, rfl⟩⟩
  · have htick := tick_of_unknown h.fetched (fun hsame => hsettled (hknown.mp hsame))
      h.cancelled h.commit
    rw [show done = _ from htick]
    exact ⟨rfl, .inr ⟨hsettled, rfl, rfl⟩⟩

/-- One uninterrupted tick settles every world. -/
theorem settled_next (h : encounter.Uninterrupted dump)
    (hnonzero : Fingerprint.ofPrograms (programsOf setup.counters dump) ≠ .zero) :
    (world.next setup encounter).Settled setup (programsOf setup.counters dump) := by
  obtain ⟨hmemory, hdone⟩ := tick_uninterrupted world h hnonzero
  refine ⟨hmemory, ?_⟩
  rcases hdone with ⟨-, hsettled, -, hidle⟩ | ⟨-, -, hattempted⟩
  · rw [holdings_next_of_idle hidle]
    exact hsettled.count
  · rw [holdings_next_of_accepted hattempted h.commit, run_replaceChain, List.length_map]

/-! ## Further ticks -/

theorem ticks_cons (world : World) (encounter : Encounter) (encounters : List Encounter) :
    world.ticks setup (encounter :: encounters) =
      world.tick setup encounter :: (world.next setup encounter).ticks setup encounters := rfl

theorem ticks_of_settled {further : List Encounter}
    (hnonzero : Fingerprint.ofPrograms (programsOf setup.counters dump) ≠ .zero)
    (hsettled : world.Settled setup (programsOf setup.counters dump))
    (hfurther : ∀ next ∈ further, next.Uninterrupted dump ∧ next.listFailure = none) :
    ∀ done ∈ world.ticks setup further,
      done.result = .ok (.unchanged (.ofPrograms (programsOf setup.counters dump))) ∧
        done.attempted = none := by
  induction further generalizing world with
  | nil =>
      intro done hdone
      cases hdone
  | cons next further ih =>
      obtain ⟨huninterrupted, hlist⟩ := hfurther next List.mem_cons_self
      intro done hdone
      rw [ticks_cons] at hdone
      rcases List.mem_cons.mp hdone with rfl | hdone
      · obtain ⟨-, hsame | hdiffers⟩ := tick_uninterrupted world huninterrupted hnonzero
        · exact ⟨hsame.2.2.1, hsame.2.2.2⟩
        · exact (hdiffers.1 ⟨hlist, hsettled⟩).elim
      · exact ih (settled_next huninterrupted hnonzero)
          (fun later hlater => hfurther later (List.mem_cons_of_mem next hlater)) done hdone

/--
From every world and for every number of rules that others leave in the chain, a tick that nothing
interrupts leaves as many rules in the chain as its dump has and remembers them. It puts them there
if the chain could not be listed or held another number of rules. All further ticks on the same
dump that nothing interrupts and that can list the chain find the rules in place and give the filter
nothing.
-/
theorem uninterrupted_tick_settles (setup : Setup) (world : World) (rules : Nat) (dump : List Char)
    (encounter : Encounter) (h : encounter.Uninterrupted dump)
    (hnonzero : Fingerprint.ofPrograms (programsOf setup.counters dump) ≠ .zero) :
    let programs := programsOf setup.counters dump
    let found := world.leave setup.chain rules
    let settled := found.next setup encounter
    (settled.holdings setup.chain).length = programs.length ∧
      settled.memory.lastApplied = .ofPrograms programs ∧
      (encounter.listFailure ≠ none ∨ rules ≠ programs.length →
        (found.tick setup encounter).result =
          .ok (.applied (.ofPrograms programs) programs.length)) ∧
      ∀ further : List Encounter,
        (∀ next ∈ further, next.Uninterrupted dump ∧ next.listFailure = none) →
          ∀ done ∈ settled.ticks setup further,
            done.result = .ok (.unchanged (.ofPrograms programs)) ∧ done.attempted = none := by
  intro programs found settled
  have hsettled : settled.Settled setup programs := settled_next h hnonzero
  refine ⟨hsettled.count, hsettled.remembered, ?_, ?_⟩
  · intro hastray
    obtain ⟨-, hsame | hdiffers⟩ := tick_uninterrupted found h hnonzero
    · obtain ⟨hlist, hfound, -, -⟩ := hsame
      have hcount : rules = programs.length := by
        have hleft := hfound.count
        simpa [found, World.leave] using hleft
      exact (hastray.elim (· hlist) (· hcount)).elim
    · exact hdiffers.2.1
  · intro further hfurther
    exact ticks_of_settled hnonzero hsettled hfurther

/-- Three rules that others left are replaced by the rule of a dump, which then stays. -/
theorem blockDump_settles :
    let found := World.initial.leave plainSetup.chain 3
    let settled := found.next plainSetup blockEncounter
    blockEncounter.Uninterrupted blockDump ∧
      (settled.holdings plainSetup.chain).length = 1 ∧
      (found.tick plainSetup blockEncounter).result =
        .ok (.applied (.ofPrograms [blockProgram]) 1) ∧
      ∀ done ∈ settled.ticks plainSetup [blockEncounter, blockEncounter],
        done.result = .ok (.unchanged (.ofPrograms [blockProgram])) ∧ done.attempted = none := by
  intro found settled
  have huninterrupted : blockEncounter.Uninterrupted blockDump := ⟨rfl, rfl, rfl⟩
  have hnonzero : Fingerprint.ofPrograms (programsOf plainSetup.counters blockDump) ≠ .zero := by
    rw [programsOf_blockDump, ofPrograms_blockProgram]
    decide
  have hsettles := uninterrupted_tick_settles plainSetup .initial 3 blockDump blockEncounter
    huninterrupted hnonzero
  rw [programsOf_blockDump] at hsettles
  obtain ⟨hcount, -, happlied, hfurther⟩ := hsettles
  refine ⟨huninterrupted, hcount, happlied (.inr (by decide)), hfurther _ ?_⟩
  intro next hnext
  obtain rfl : next = blockEncounter := by simpa using hnext
  exact ⟨huninterrupted, rfl⟩

end Reconciler

end FlowFence
