import FlowFence.Action
import FlowFence.Network

/-!
# Flow-spec routes

What the routing daemon announces: the session a route was learned from, the criteria that traffic
has to meet, and the action to take on it.
-/

namespace FlowFence

structure Session where
  name : String
  neighbor : Address
  /-- The time of import in the routing daemon's own form. -/
  imported : String
deriving DecidableEq, Inhabited

/-- What traffic has to meet. A missing block and a zero number stand for any value. -/
structure Criteria where
  source : Option Network := none
  destination : Option Network := none
  protocol : Nat := 0
  sourcePort : Nat := 0
  destinationPort : Nat := 0
deriving DecidableEq, Inhabited

structure Route where
  session : Session
  criteria : Criteria
  action : Action
  /-- For a rate action the rate per second; zero asks for all traffic to be dropped. -/
  argument : Int
deriving DecidableEq, Inhabited

end FlowFence
