import FlowFence.Program.Basic
import FlowFence.Program.NamedCounter
import FlowFence.Route.Basic

/-!
# The program of a route

A route with a rate action becomes one program: the tests of its criteria in a fixed order (source,
destination, protocol, source port, destination port), then for a positive rate the limit that only
traffic above the rate passes, then the drop. A rate of zero drops all traffic that meets the
criteria. Named counters are interleaved on demand; they take no part in the decision.
-/

namespace FlowFence

inductive CompileError where
  /-- Only rate actions can be enforced by a filter. -/
  | action (action : Action)
  | negativeArgument (argument : Int)
deriving DecidableEq

def CompileError.message : CompileError → String
  | .action requested => "unsupported action type: " ++ requested.name
  | .negativeArgument argument => "negative rate argument: " ++ toString argument

namespace Program

/-- The register that every test loads into and compares from. -/
def register : Nat := 1

inductive Direction where
  | source
  | destination
deriving DecidableEq, Inhabited

def addressOffset : Family → Direction → Nat
  | .ipv4, .source => 12
  | .ipv4, .destination => 16
  | .ipv6, .source => 8
  | .ipv6, .destination => 24

def portOffset : Direction → Nat
  | .source => 0
  | .destination => 2

def addressTest (direction : Direction) (network : Network) : Program :=
  let length := network.family.byteCount
  [.load .network (addressOffset network.family direction) length register,
    .mask register register length network.maskBytes (List.replicate length 0),
    .compare register network.baseBytes]

def portTest (direction : Direction) (port : Nat) : Program :=
  [.load .transport (portOffset direction) 2 register,
    .compare register [UInt8.ofNat (port / 256), UInt8.ofNat (port % 256)]]

def protocolTest (protocol : Nat) : Program :=
  [.loadProtocol register, .compare register [UInt8.ofNat protocol]]

def addressTest? (direction : Direction) : Option Network → Program
  | some network => addressTest direction network
  | none => []

/-- The test of a number, unless it is zero, which stands for any value. -/
def unlessZero (test : Nat → Program) (n : Nat) : Program :=
  if n = 0 then [] else test n

def tests (criteria : Criteria) : Program :=
  addressTest? .source criteria.source ++
    addressTest? .destination criteria.destination ++
    unlessZero protocolTest criteria.protocol ++
    unlessZero (portTest .source) criteria.sourcePort ++
    unlessZero (portTest .destination) criteria.destinationPort

def countIn (name : String) : Program :=
  [.counterRef name, .counter 0 0]

/-- The limit that only traffic above a rate passes; none for the rate zero. -/
def limitTail (unit : LimitUnit) (rate : Nat) (counters : Bool) : Program :=
  if rate = 0 then []
  else (if counters then countIn NamedCounter.limitMatched else []) ++ [.limit unit rate true]

def dropTail (counters : Bool) : Program :=
  (if counters then countIn NamedCounter.dropped else []) ++ [.drop]

def unitOf? : Action → Option LimitUnit
  | .rateBytes => some .bytes
  | .ratePackets => some .packets
  | _ => none

def ofRoute? (route : Route) (counters : Bool) : Except CompileError Program :=
  match unitOf? route.action with
  | none => .error (.action route.action)
  | some unit =>
      if route.argument < 0 then .error (.negativeArgument route.argument)
      else
        .ok (tests route.criteria ++ limitTail unit route.argument.toNat counters ++
          dropTail counters)

end Program

end FlowFence
