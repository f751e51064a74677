import FlowFence.Ruleset.Batch

/-!
# What chains hold

The content of every chain, and what changes and commands make of it: a flush empties the named
chain, an append adds one rule at its end, and no other chain is touched.
-/

namespace FlowFence

abbrev Holdings (α : Type) := Chain → List α

namespace Holdings

variable {α : Type}

def empty : Holdings α :=
  fun _ => []

def put (holdings : Holdings α) (chain : Chain) (rules : List α) : Holdings α :=
  fun other => if other = chain then rules else holdings other

def flush (holdings : Holdings α) (chain : Chain) : Holdings α :=
  holdings.put chain []

def append (holdings : Holdings α) (chain : Chain) (rule : α) : Holdings α :=
  holdings.put chain (holdings chain ++ [rule])

@[simp] theorem put_same (holdings : Holdings α) (chain : Chain) (rules : List α) :
    holdings.put chain rules chain = rules := by
  simp [put]

theorem put_other (holdings : Holdings α) {chain other : Chain} (rules : List α)
    (h : other ≠ chain) : holdings.put chain rules other = holdings other := by
  simp [put, h]

@[simp] theorem flush_same (holdings : Holdings α) (chain : Chain) :
    holdings.flush chain chain = [] := by
  simp [flush]

theorem flush_other (holdings : Holdings α) {chain other : Chain} (h : other ≠ chain) :
    holdings.flush chain other = holdings other :=
  holdings.put_other [] h

@[simp] theorem append_same (holdings : Holdings α) (chain : Chain) (rule : α) :
    holdings.append chain rule chain = holdings chain ++ [rule] := by
  simp [append]

theorem append_other (holdings : Holdings α) {chain other : Chain} (rule : α)
    (h : other ≠ chain) : holdings.append chain rule other = holdings other :=
  holdings.put_other _ h

end Holdings

/-- What a change makes of holdings whose rules are given by programs. -/
def Change.run {α : Type} (rule : Program → α) (holdings : Holdings α) : Change → Holdings α
  | .flush chain => holdings.flush chain
  | .append chain program => holdings.append chain (rule program)

def Batch.run {α : Type} (rule : Program → α) (holdings : Holdings α) (batch : Batch) :
    Holdings α :=
  batch.foldl (Change.run rule) holdings

def Command.run (holdings : Holdings (List Statement)) : Command → Holdings (List Statement)
  | .flushChain chain => holdings.flush chain
  | .addRule chain statements => holdings.append chain statements
  | _ => holdings

def Document.run (holdings : Holdings (List Statement)) (document : Document) :
    Holdings (List Statement) :=
  document.foldl Command.run holdings

end FlowFence
