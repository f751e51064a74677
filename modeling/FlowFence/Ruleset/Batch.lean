import FlowFence.Ruleset.Chain
import FlowFence.Ruleset.Lift

/-!
# Batches and documents

A batch is an ordered list of changes to chains that is applied as one transaction. Its document is
the list of commands that the filter tool reads: one command for each change, in order.
-/

namespace FlowFence

inductive Change where
  /-- Delete every rule of a chain. -/
  | flush (chain : Chain)
  | append (chain : Chain) (program : Program)
deriving DecidableEq, Inhabited

def Change.program? : Change → Option Program
  | .flush _ => none
  | .append _ program => some program

/-- Changes that are applied as one transaction. -/
abbrev Batch := List Change

inductive Command where
  | addTable (table : String)
  | addChain (chain : Chain)
  | addCounter (table name : String)
  | flushChain (chain : Chain)
  | addRule (chain : Chain) (statements : List Statement)
deriving DecidableEq, Inhabited

abbrev Document := List Command

namespace Batch

def replaceChain (chain : Chain) (programs : List Program) : Batch :=
  .flush chain :: programs.map (.append chain)

def programs (batch : Batch) : List Program :=
  batch.filterMap Change.program?

@[simp] theorem programs_replaceChain (chain : Chain) (programs : List Program) :
    (replaceChain chain programs).programs = programs := by
  have hflush : Change.program? (.flush chain) = none := rfl
  have happend : Change.program? ∘ Change.append chain = some := rfl
  rw [Batch.programs, replaceChain, List.filterMap_cons_none hflush, List.filterMap_map, happend,
    List.filterMap_some]

end Batch

namespace Command

def ofChange? : Change → Except LiftError Command
  | .flush chain => .ok (.flushChain chain)
  | .append chain program => (Statement.ofProgram? program).map (.addRule chain)

def chainJson (chain : Chain) : Json :=
  .object [("family", .text tableFamily), ("table", .text chain.table),
    ("name", .text chain.name)]

def toJson : Command → Json
  | .addTable table =>
      .keyed "add" (.keyed "table" (.object [("family", .text tableFamily),
        ("name", .text table)]))
  | .addChain chain => .keyed "add" (.keyed "chain" (chainJson chain))
  | .addCounter table name =>
      .keyed "add" (.keyed "counter" (.object [("family", .text tableFamily),
        ("table", .text table), ("name", .text name)]))
  | .flushChain chain => .keyed "flush" (.keyed "chain" (chainJson chain))
  | .addRule chain statements =>
      .keyed "add" (.keyed "rule" (.object [("family", .text tableFamily),
        ("table", .text chain.table), ("chain", .text chain.name),
        ("expr", .list (statements.map Statement.toJson))]))

end Command

namespace Document

/-- The document of a batch, or the error of the first rule that has no statements. -/
def ofBatch? : Batch → Except LiftError Document
  | [] => .ok []
  | change :: changes =>
      match Command.ofChange? change with
      | .error e => .error e
      | .ok command => (ofBatch? changes).map (command :: ·)

def toJson (document : Document) : Json :=
  .keyed "nftables" (.list (document.map Command.toJson))

end Document

end FlowFence
