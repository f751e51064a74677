import FlowFence.Program.Compile
import FlowFence.Route.Dump
import FlowFence.Route.Reader

/-!
# Rule sets of dumps

A dump of the routing daemon becomes a rule set block by block. A block that holds no usable route
is passed over, so one bad route does not keep the others from being enforced.
-/

namespace FlowFence

inductive BlockResult where
  /-- The block does not describe a route. -/
  | unread (cause : RouteError)
  /-- The route of the block has no program. -/
  | uncompiled (route : Route) (cause : CompileError)
  | compiled (route : Route) (program : Program)

namespace BlockResult

def ofBlock (counters : Bool) (block : List Char) : BlockResult :=
  match Route.parse block with
  | .error cause => .unread cause
  | .ok route =>
      match Program.ofRoute? route counters with
      | .error cause => .uncompiled route cause
      | .ok program => .compiled route program

def program? : BlockResult → Option Program
  | .compiled _ program => some program
  | _ => none

/-- Whether a block does not describe a route. -/
def isUnread : BlockResult → Bool
  | .unread _ => true
  | _ => false

/-- Whether the route of a block has no program. -/
def isUncompiled : BlockResult → Bool
  | .uncompiled _ _ => true
  | _ => false

end BlockResult

def blockResults (counters : Bool) (dump : List Char) : List BlockResult :=
  (Dump.blocks dump).map (BlockResult.ofBlock counters)

@[simp] theorem length_blockResults (counters : Bool) (dump : List Char) :
    (blockResults counters dump).length = (Dump.blocks dump).length := by
  simp [blockResults]

def programsOf (counters : Bool) (dump : List Char) : List Program :=
  (blockResults counters dump).filterMap BlockResult.program?

end FlowFence
