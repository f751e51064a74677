import FlowFence.Proofs.Ruleset.Batches
import FlowFence.Ruleset.Tool
import Mathlib.Data.List.Forall2

/-!
# Documents carry out batches

A document as the filter tool takes it is a list of instructions, each to empty a chain or to add a
rule to it. A batch has a document unless one of its rules has no statements; the instructions of
the document are those of the batch, one for each change, and leave every chain with the rules that
the batch asks for.
-/

namespace FlowFence

def writtenRule? (program : Program) : Except LiftError (List Json) :=
  (Statement.ofProgram? program).map (·.map Statement.toJson)

/-! ## Instructions -/

inductive Instruction where
  /-- Delete every rule of a chain. -/
  | flush (chain : Chain)
  /-- Add a rule, a list of written statements, at the end of a chain. -/
  | add (chain : Chain) (rule : List Json)

namespace Instruction

def chainOf? (nameKey : String) (place : Json) : Option Chain :=
  match place.member? "family", place.member? "table", place.member? nameKey with
  | some (.text family), some (.text table), some (.text name) =>
      if family = tableFamily then some ⟨table, name⟩ else none
  | _, _, _ => none

def ofJson? : Json → Option Instruction
  | .object [("flush", .object [("chain", place)])] => (chainOf? "name" place).map .flush
  | .object [("add", .object [("rule", place)])] =>
      match place.member? "expr" with
      | some (.list statements) => (chainOf? "chain" place).map (.add · statements)
      | _ => none
  | _ => none

def ofDocument? (document : Json) : Option (List Instruction) :=
  match document.member? "nftables" with
  | some (.list commands) => commands.mapM ofJson?
  | _ => none

def run (holdings : Holdings (List Json)) : Instruction → Holdings (List Json)
  | .flush chain => holdings.flush chain
  | .add chain rule => holdings.append chain rule

def runAll (holdings : Holdings (List Json)) (instructions : List Instruction) :
    Holdings (List Json) :=
  instructions.foldl run holdings

/-- Whether an instruction is that of a change: it names the same chain and the same rule. -/
inductive CarriesOut : Instruction → Change → Prop
  | flush (chain : Chain) : CarriesOut (.flush chain) (.flush chain)
  | add (chain : Chain) {program : Program} {rule : List Json}
      (h : writtenRule? program = .ok rule) : CarriesOut (.add chain rule) (.append chain program)

end Instruction

/-! ## Which batches have a document -/

/-- Whether a batch adds a rule that has no statements, with the error of the first such rule. -/
def Batch.FailsWith (batch : Batch) (e : LiftError) : Prop :=
  ∃ front chain program back, batch = front ++ .append chain program :: back ∧
    Statement.ofProgram? program = .error e ∧
    ∀ earlier added, .append earlier added ∈ front →
      ∃ statements, Statement.ofProgram? added = .ok statements

theorem Command.ofChange?_eq_error_iff {change : Change} {e : LiftError} :
    ofChange? change = .error e ↔
      ∃ chain program, change = .append chain program ∧
        Statement.ofProgram? program = .error e := by
  cases change with
  | flush chain => simp [ofChange?]
  | append chain program =>
      cases hstatements : Statement.ofProgram? program <;>
        simp [ofChange?, hstatements, Except.map]

theorem Command.ofChange?_eq_ok_iff {change : Change} {command : Command} :
    ofChange? change = .ok command ↔
      (∃ chain, change = .flush chain ∧ command = .flushChain chain) ∨
      ∃ chain program statements, change = .append chain program ∧
        Statement.ofProgram? program = .ok statements ∧ command = .addRule chain statements := by
  cases change with
  | flush chain => simp [ofChange?, eq_comm]
  | append chain program =>
      cases hstatements : Statement.ofProgram? program <;>
        simp [ofChange?, hstatements, Except.map, eq_comm]

theorem Command.exists_ofChange?_iff {change : Change} :
    (∃ command, ofChange? change = .ok command) ↔
      ∀ chain program, change = .append chain program →
        ∃ statements, Statement.ofProgram? program = .ok statements := by
  cases change with
  | flush chain => simp [ofChange?]
  | append chain program =>
      cases hstatements : Statement.ofProgram? program <;>
        simp [ofChange?, hstatements, Except.map]

namespace Batch

theorem not_failsWith_nil (e : LiftError) : ¬ FailsWith [] e := by
  rintro ⟨front, chain, program, back, hbatch, -⟩
  simp at hbatch

theorem failsWith_cons_iff {change : Change} {batch : Batch} {e : LiftError} :
    FailsWith (change :: batch) e ↔
      Command.ofChange? change = .error e ∨
        (∃ command, Command.ofChange? change = .ok command) ∧ batch.FailsWith e := by
  rw [Command.ofChange?_eq_error_iff, Command.exists_ofChange?_iff]
  constructor
  · rintro ⟨front, chain, program, back, hbatch, herror, hfront⟩
    cases front with
    | nil =>
        cases hbatch
        exact .inl ⟨chain, program, rfl, herror⟩
    | cons first front =>
        cases hbatch
        refine .inr ⟨fun earlier added hfirst => hfront earlier added ?_, ?_⟩
        · exact hfirst ▸ List.mem_cons_self
        · exact ⟨front, chain, program, back, rfl, herror, fun earlier added hadded =>
            hfront earlier added (List.mem_cons_of_mem _ hadded)⟩
  · rintro (⟨chain, program, rfl, herror⟩ |
      ⟨hchange, front, chain, program, back, rfl, herror, hfront⟩)
    · exact ⟨[], chain, program, batch, rfl, herror, by simp⟩
    · refine ⟨change :: front, chain, program, back, rfl, herror, fun earlier added hadded => ?_⟩
      rcases List.mem_cons.mp hadded with hfirst | hadded
      · exact hchange earlier added hfirst.symm
      · exact hfront earlier added hadded

/-- A batch fails just if one of its rules has no statements. -/
theorem exists_failsWith_iff (batch : Batch) :
    (∃ e, batch.FailsWith e) ↔
      ∃ chain program e, .append chain program ∈ batch ∧
        Statement.ofProgram? program = .error e := by
  induction batch with
  | nil => simp [not_failsWith_nil]
  | cons change batch ih =>
      constructor
      · rintro ⟨e, front, chain, program, back, hbatch, herror, -⟩
        exact ⟨chain, program, e, by simp [hbatch], herror⟩
      · rintro ⟨chain, program, e, hmem, herror⟩
        -- the first rule that fails may stand in front of the given one
        cases hchange : Command.ofChange? change with
        | error first => exact ⟨first, failsWith_cons_iff.mpr (.inl hchange)⟩
        | ok command =>
            rcases List.mem_cons.mp hmem with hfirst | hmem
            · have hrefused : Command.ofChange? change = .error e :=
                Command.ofChange?_eq_error_iff.mpr ⟨chain, program, hfirst.symm, herror⟩
              cases hchange.symm.trans hrefused
            · obtain ⟨later, hlater⟩ := ih.mpr ⟨chain, program, e, hmem, herror⟩
              exact ⟨later, failsWith_cons_iff.mpr (.inr ⟨⟨command, hchange⟩, hlater⟩)⟩

end Batch

namespace Document

theorem ofBatch?_cons (change : Change) (batch : Batch) :
    ofBatch? (change :: batch) =
      (Command.ofChange? change).bind fun command => (ofBatch? batch).map (command :: ·) := by
  rw [ofBatch?]
  cases Command.ofChange? change <;> rfl

/-- A document has the command of each change, in order. -/
theorem forall₂_of_ofBatch? {batch : Batch} {document : Document}
    (h : ofBatch? batch = .ok document) :
    List.Forall₂ (fun command change => Command.ofChange? change = .ok command)
      document batch := by
  induction batch generalizing document with
  | nil =>
      cases h
      exact .nil
  | cons change batch ih =>
      rw [ofBatch?_cons] at h
      cases hcommand : Command.ofChange? change with
      | error e => simp [hcommand, Except.bind] at h
      | ok command =>
          cases hrest : ofBatch? batch with
          | error e => simp [hcommand, hrest, Except.bind, Except.map] at h
          | ok rest =>
              simp only [hcommand, hrest, Except.bind, Except.map, Except.ok.injEq] at h
              exact h ▸ .cons hcommand (ih hrest)

theorem ofBatch?_eq_error_iff {batch : Batch} {e : LiftError} :
    ofBatch? batch = .error e ↔ batch.FailsWith e := by
  induction batch with
  | nil => simp [ofBatch?, Batch.not_failsWith_nil]
  | cons change batch ih =>
      rw [ofBatch?_cons, Batch.failsWith_cons_iff]
      cases hchange : Command.ofChange? change with
      | error first => simp [Except.bind]
      | ok command =>
          rw [← ih]
          cases ofBatch? batch <;> simp [Except.bind, Except.map]

end Document

/-! ## What a document does -/

namespace Instruction

theorem CarriesOut.run_eq {instruction : Instruction} {change : Change}
    (h : instruction.CarriesOut change) (holdings : Holdings (List Json)) :
    change.run writtenRule? (holdings.map .ok) = (instruction.run holdings).map .ok := by
  cases h with
  | flush chain => exact (Holdings.map_flush _ _ _).symm
  | add chain hrule =>
      rw [Change.run, hrule]
      exact (Holdings.map_append _ _ _ _).symm

theorem run_runAll {instructions : List Instruction} {batch : Batch}
    (h : List.Forall₂ CarriesOut instructions batch) (prior : Holdings (List Json)) :
    batch.run writtenRule? (prior.map .ok) = (runAll prior instructions).map .ok :=
  Batch.run_eq_map_foldl writtenRule? (fun _ _ hstep => hstep.run_eq) h prior

/-- A written command is read as the instruction that it stands for. -/
theorem exists_ofJson? {command : Command} {change : Change}
    (h : Command.ofChange? change = .ok command) :
    ∃ instruction, ofJson? command.toJson = some instruction ∧ instruction.CarriesOut change := by
  rcases Command.ofChange?_eq_ok_iff.mp h with
    ⟨chain, rfl, rfl⟩ | ⟨chain, program, statements, rfl, hstatements, rfl⟩
  · exact ⟨.flush chain, rfl, .flush chain⟩
  · have hrule : writtenRule? program = .ok (statements.map Statement.toJson) := by
      rw [writtenRule?, hstatements]
      rfl
    exact ⟨.add chain (statements.map Statement.toJson), rfl, .add chain hrule⟩

theorem exists_ofDocument? {document : Document} {batch : Batch}
    (h : Document.ofBatch? batch = .ok document) :
    ∃ instructions, ofDocument? document.toJson = some instructions ∧
      List.Forall₂ CarriesOut instructions batch := by
  have hcommands := Document.forall₂_of_ofBatch? h
  clear h
  change ∃ instructions, (document.map Command.toJson).mapM ofJson? = some instructions ∧ _
  induction hcommands with
  | nil => exact ⟨[], rfl, .nil⟩
  | cons hcommand _ ih =>
      obtain ⟨instruction, hread, hinstruction⟩ := exists_ofJson? hcommand
      obtain ⟨instructions, hreads, hinstructions⟩ := ih
      refine ⟨instruction :: instructions, ?_, .cons hinstruction hinstructions⟩
      simp [List.mapM_cons, hread, hreads]

end Instruction

theorem Command.run_eq {command : Command} {change : Change}
    (h : ofChange? change = .ok command) (holdings : Holdings (List Statement)) :
    change.run Statement.ofProgram? (holdings.map .ok) = (command.run holdings).map .ok := by
  rcases ofChange?_eq_ok_iff.mp h with
    ⟨chain, rfl, rfl⟩ | ⟨chain, program, statements, rfl, hstatements, rfl⟩
  · exact (Holdings.map_flush _ _ _).symm
  · rw [Change.run, hstatements]
    exact (Holdings.map_append _ _ _ _).symm

theorem Document.run_ofBatch? {batch : Batch} {document : Document}
    (h : ofBatch? batch = .ok document) (prior : Holdings (List Statement)) :
    batch.run Statement.ofProgram? (prior.map .ok) = (document.run prior).map .ok :=
  Batch.run_eq_map_foldl Statement.ofProgram? (fun _ _ hcommand => Command.run_eq hcommand)
    (forall₂_of_ofBatch? h) prior

theorem Tool.invocation?_commit_of_error {batch : Batch} {e : LiftError}
    (h : Document.ofBatch? batch = .error e) :
    (Request.commit batch).invocation? = .error (.ofLift e) := by
  rw [Request.invocation?, h]

theorem Tool.invocation?_commit_of_ok {batch : Batch} {document : Document}
    (h : Document.ofBatch? batch = .ok document) :
    (Request.commit batch).invocation? = .ok (some (apply document)) := by
  rw [Request.invocation?, h]

theorem map_ok_injective :
    Function.Injective (List.map (.ok : List Json → Except LiftError (List Json))) :=
  List.map_injective_iff.mpr fun _ _ => Except.ok.inj

namespace Instruction

section Replacing

variable {chain : Chain} {programs : List Program} {instructions : List Instruction}
  (h : List.Forall₂ CarriesOut instructions (Batch.replaceChain chain programs))
include h

theorem runAll_replaceChain (prior : Holdings (List Json)) :
    (runAll prior instructions chain).map .ok = programs.map writtenRule? := by
  have hrun := congrFun (run_runAll h prior) chain
  rw [Batch.run_replaceChain] at hrun
  exact hrun.symm

theorem runAll_replaceChain_other (prior : Holdings (List Json)) {other : Chain}
    (hother : other ≠ chain) : runAll prior instructions other = prior other := by
  have hrun := congrFun (run_runAll h prior) other
  rw [Batch.run_replaceChain_other writtenRule? _ hother] at hrun
  exact map_ok_injective hrun.symm

end Replacing

end Instruction

/--
A batch has no document just if one of its rules has no statements; the error is that of the first
such rule, and a commit ends with it before the filter tool is run. Otherwise the tool is run on one
document, whose instructions are those of the batch, one for each change, in order. Whatever the
chains hold before, running the instructions leaves every chain with the written rules of the
programs that the batch leaves it with. If the batch replaces a chain, that chain ends up with just
the given rules and every other chain with what it had.
-/
theorem documents_carry_out_batches (batch : Batch) :
    ((∃ e, Document.ofBatch? batch = .error e) ↔
      ∃ chain program e, .append chain program ∈ batch ∧
        Statement.ofProgram? program = .error e) ∧
    (∀ e, Document.ofBatch? batch = .error e ↔ batch.FailsWith e) ∧
    (∀ e, Document.ofBatch? batch = .error e →
      (Tool.Request.commit batch).invocation? = .error (.ofLift e)) ∧
    ∀ document, Document.ofBatch? batch = .ok document →
      (Tool.Request.commit batch).invocation? = .ok (some (Tool.apply document)) ∧
      (∀ prior, batch.run Statement.ofProgram? (prior.map .ok) = (document.run prior).map .ok) ∧
      ∃ instructions, Instruction.ofDocument? document.toJson = some instructions ∧
        List.Forall₂ Instruction.CarriesOut instructions batch ∧
        (∀ prior, batch.run writtenRule? (prior.map .ok) =
          (Instruction.runAll prior instructions).map .ok) ∧
        ∀ chain programs, batch = .replaceChain chain programs → ∀ prior,
          (Instruction.runAll prior instructions chain).map .ok = programs.map writtenRule? ∧
          ∀ other, other ≠ chain → Instruction.runAll prior instructions other = prior other := by
  refine ⟨?_, fun e => Document.ofBatch?_eq_error_iff,
    fun e => Tool.invocation?_commit_of_error, fun document hdocument => ?_⟩
  · simp only [Document.ofBatch?_eq_error_iff]
    exact batch.exists_failsWith_iff
  · obtain ⟨instructions, hread, hinstructions⟩ := Instruction.exists_ofDocument? hdocument
    refine ⟨Tool.invocation?_commit_of_ok hdocument, Document.run_ofBatch? hdocument,
      instructions, hread, hinstructions, Instruction.run_runAll hinstructions, ?_⟩
    rintro chain programs rfl prior
    exact ⟨Instruction.runAll_replaceChain hinstructions prior, fun other =>
      Instruction.runAll_replaceChain_other hinstructions prior⟩

/-- Rules for two chains, one of which is flushed again, and a batch whose second rule fails. -/
theorem twoChains_are_carried_out :
    let first : Chain := ⟨"filter", "first"⟩
    let second : Chain := ⟨"filter", "second"⟩
    let batch : Batch := [.append first [.drop], .append second [.drop], .flush first,
      .append first [.limit .packets 5 true], .append second [.counterRef "seen", .counter 0 0]]
    let failing : Batch := [.append first [.drop], .append first [.drop, .compare 1 []],
      .append second [.loadProtocol 1]]
    (∃ document instructions, Document.ofBatch? batch = .ok document ∧
      Instruction.ofDocument? document.toJson = some instructions ∧
      ∀ prior,
        Instruction.runAll prior instructions first =
          [[Statement.toJson (.limit .packets 5 true)]] ∧
        Instruction.runAll prior instructions second =
          prior second ++ [[Statement.toJson .drop], [Statement.toJson (.countNamed "seen")]]) ∧
    (Tool.Request.commit failing).invocation? = .error (.ofLift (.stray (.compare 1 []))) := by
  intro first second batch failing
  constructor
  · have hdocument : Document.ofBatch? batch = .ok [.addRule first [.drop],
        .addRule second [.drop], .flushChain first, .addRule first [.limit .packets 5 true],
        .addRule second [.countNamed "seen"]] := by decide
    obtain ⟨-, -, -, hdocuments⟩ := documents_carry_out_batches batch
    obtain ⟨-, -, instructions, hread, -, hrun, -⟩ := hdocuments _ hdocument
    refine ⟨_, instructions, hdocument, hread, fun prior => ?_⟩
    have hfirst := congrFun (hrun prior) first
    have hsecond := congrFun (hrun prior) second
    refine ⟨map_ok_injective hfirst.symm, map_ok_injective (hsecond.symm.trans ?_)⟩
    change (prior second).map .ok ++ [writtenRule? [.drop]] ++
      [writtenRule? [.counterRef "seen", .counter 0 0]] = _
    rw [List.append_assoc, List.map_append]
    rfl
  · obtain ⟨-, -, hcommit, -⟩ := documents_carry_out_batches failing
    exact hcommit _ (by decide)

end FlowFence
