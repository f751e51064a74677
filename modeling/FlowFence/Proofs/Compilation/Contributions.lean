import FlowFence.Proofs.Reconciler.Exits
import FlowFence.Proofs.Route.Division

/-!
# What blocks contribute

Every block of a dump has one result: it gives a rule, or it is counted as unread or as without a
program. The results of a dump are those of its blocks one by one, so what a block contributes
depends on no other block, and a dump that goes on with a marker contributes what its parts do.
-/

namespace FlowFence

open Reconciler (Conditions Memory Setup exit_tick tick)

variable {counters : Bool} {dump : List Char}

def CompilesTo (counters : Bool) (block : List Char) (program : Program) : Prop :=
  ∃ route, BlockResult.ofBlock counters block = .compiled route program

def unreadBlocks (counters : Bool) (dump : List Char) : Nat :=
  (blockResults counters dump).countP BlockResult.isUnread

def uncompiledBlocks (counters : Bool) (dump : List Char) : Nat :=
  (blockResults counters dump).countP BlockResult.isUncompiled

/-! ## One dump -/

namespace BlockResult

theorem length_eq_sum (results : List BlockResult) :
    results.length = (results.filterMap program?).length + results.countP isUnread +
      results.countP isUncompiled := by
  induction results with
  | nil => rfl
  | cons result results ih =>
      cases result with
      | unread cause | uncompiled route cause | compiled route program =>
          simp only [List.length_cons, List.filterMap_cons, List.countP_cons, program?, isUnread,
            isUncompiled, if_true, Bool.false_eq_true, if_false, ih]
          omega

/-- The programs among results are those of some of the blocks, in the order of these. -/
theorem exists_sublist_compilesTo (counters : Bool) (blocks : List (List Char)) :
    ∃ compiled, compiled.Sublist blocks ∧
      List.Forall₂ (CompilesTo counters) compiled
        ((blocks.map (ofBlock counters)).filterMap program?) := by
  induction blocks with
  | nil => exact ⟨[], .slnil, .nil⟩
  | cons block blocks ih =>
      obtain ⟨compiled, hsublist, hprograms⟩ := ih
      simp only [List.map_cons, List.filterMap_cons]
      cases hresult : ofBlock counters block with
      | unread cause | uncompiled route cause =>
          exact ⟨compiled, hsublist.cons block, hprograms⟩
      | compiled route program =>
          exact ⟨block :: compiled, hsublist.cons_cons block, .cons ⟨route, hresult⟩ hprograms⟩

end BlockResult

theorem length_blocks_eq_sum (counters : Bool) (dump : List Char) :
    (Dump.blocks dump).length = (programsOf counters dump).length + unreadBlocks counters dump +
      uncompiledBlocks counters dump := by
  rw [← length_blockResults counters]
  exact BlockResult.length_eq_sum _

/-- A tick that is given a dump counts the blocks of it that give no rule. -/
theorem errors_of_fetched {setup : Setup} {memory : Memory} {conditions : Conditions}
    (h : conditions.fetched = .ok dump) :
    (tick setup memory conditions).memory.telemetry.parseErrors =
        memory.telemetry.parseErrors + unreadBlocks setup.counters dump ∧
      (tick setup memory conditions).memory.telemetry.compileErrors =
        memory.telemetry.compileErrors + uncompiledBlocks setup.counters dump := by
  have hexit := exit_tick setup memory conditions
  generalize tick setup memory conditions = done at hexit
  cases hexit with
  | unfetched cause fetched => exact nomatch fetched.symm.trans h
  | unchanged other programs fetched | cancelled other programs fetched
  | failed other programs cause fetched | applied other programs fetched =>
      obtain rfl := Except.ok.inj (fetched.symm.trans h)
      exact ⟨rfl, rfl⟩

/-! ## Dumps put together -/

theorem blockResults_append {rest : List Char} (h : Dump.startsBlock rest = true)
    (counters : Bool) (first : List Char) :
    blockResults counters (first ++ rest) =
      blockResults counters first ++ blockResults counters rest := by
  rw [blockResults, Dump.blocks_append h, List.map_append, blockResults, blockResults]

theorem programsOf_append {rest : List Char} (h : Dump.startsBlock rest = true) (counters : Bool)
    (first : List Char) :
    programsOf counters (first ++ rest) = programsOf counters first ++ programsOf counters rest := by
  rw [programsOf, blockResults_append h, List.filterMap_append, programsOf, programsOf]

/--
The rules of a dump are those of some of its blocks, in the order of these, and the others are
counted by one of the two errors, as is recorded by every tick that is given the dump. If a text
that begins with a marker is put behind a dump, its rules and its errors are added to those of the
dump; and whatever stands between a dump and such a text, and itself begins with a marker, changes
nothing about the results of either.
-/
theorem blocks_contribute_alone (counters : Bool) :
    (∀ dump, (Dump.blocks dump).length = (programsOf counters dump).length +
        unreadBlocks counters dump + uncompiledBlocks counters dump ∧
      ∃ compiled, compiled.Sublist (Dump.blocks dump) ∧
        List.Forall₂ (CompilesTo counters) compiled (programsOf counters dump)) ∧
    (∀ (chain : Chain) (memory : Memory) (conditions : Conditions) (dump : List Char),
      conditions.fetched = .ok dump →
        let before := memory.telemetry
        let after := (tick ⟨chain, counters⟩ memory conditions).memory.telemetry
        after.parseErrors = before.parseErrors + unreadBlocks counters dump ∧
          after.compileErrors = before.compileErrors + uncompiledBlocks counters dump) ∧
    (∀ first rest, Dump.startsBlock rest = true →
      programsOf counters (first ++ rest) =
          programsOf counters first ++ programsOf counters rest ∧
        unreadBlocks counters (first ++ rest) =
          unreadBlocks counters first + unreadBlocks counters rest ∧
        uncompiledBlocks counters (first ++ rest) =
          uncompiledBlocks counters first + uncompiledBlocks counters rest) ∧
    ∀ first middle last, Dump.startsBlock middle = true → Dump.startsBlock last = true →
      blockResults counters (first ++ middle ++ last) =
        blockResults counters first ++ blockResults counters middle ++
          blockResults counters last := by
  refine ⟨?_, ?_, ?_, ?_⟩
  · intro dump
    exact ⟨length_blocks_eq_sum counters dump,
      BlockResult.exists_sublist_compilesTo counters (Dump.blocks dump)⟩
  · intro chain memory conditions dump hfetched
    exact errors_of_fetched hfetched
  · intro first rest h
    refine ⟨programsOf_append h counters first, ?_, ?_⟩
    · rw [unreadBlocks, blockResults_append h, List.countP_append, unreadBlocks, unreadBlocks]
    · rw [uncompiledBlocks, blockResults_append h, List.countP_append, uncompiledBlocks,
        uncompiledBlocks]
  · intro first middle last hmiddle hlast
    rw [blockResults_append hlast, blockResults_append hmiddle]

/-- A dump of a block without a session, which ends inside of what looks like a marker. -/
def brokenDump : List Char :=
  "1007-flow6 { dst 2001:db8::/32; }\nflow4 ".toList

def mixedDump : List Char :=
  "flow4 { dport 53; } [rs1 2024-05-01 from 192.0.2.1]\n".toList ++
    "\tBGP.ext_community: (generic, 0x80080000, 0x0)\n".toList ++
    "flow4 { dport 123; } [rs1 2024-05-01 from 192.0.2.1]\n".toList ++
    "\tBGP.ext_community: (generic, 0x80060000, 0x0)\n".toList

theorem results_of_dumps :
    Dump.startsBlock mixedDump = true ∧
      programsOf false brokenDump = [] ∧ unreadBlocks false brokenDump = 1 ∧
      uncompiledBlocks false brokenDump = 0 ∧
      programsOf false mixedDump = [[.load .transport 2 2 1, .compare 1 [0, 123], .drop]] ∧
      unreadBlocks false mixedDump = 0 ∧ uncompiledBlocks false mixedDump = 1 := by
  decide +kernel

theorem brokenDump_leaves_mixedDump_alone :
    Dump.startsBlock mixedDump = true ∧
      programsOf false (brokenDump ++ mixedDump) =
        [[.load .transport 2 2 1, .compare 1 [0, 123], .drop]] ∧
      unreadBlocks false (brokenDump ++ mixedDump) = 1 ∧
      uncompiledBlocks false (brokenDump ++ mixedDump) = 1 ∧
      blockResults false (brokenDump ++ mixedDump ++ mixedDump) =
        blockResults false brokenDump ++ blockResults false mixedDump ++
          blockResults false mixedDump := by
  obtain ⟨-, -, hsums, hresults⟩ := blocks_contribute_alone false
  obtain ⟨hmarker, hnone, hbroken, hno, hrule, hread, hmixed⟩ := results_of_dumps
  obtain ⟨hprograms, hunread, huncompiled⟩ := hsums brokenDump mixedDump hmarker
  refine ⟨hmarker, ?_, ?_, ?_, hresults _ _ _ hmarker hmarker⟩
  · rw [hprograms, hnone, hrule, List.nil_append]
  · rw [hunread, hbroken, hread]
  · rw [huncompiled, hno, hmixed]

end FlowFence
