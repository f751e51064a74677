import FlowFence.Ruleset.Statement
import FlowFence.Traffic.Matching

/-!
# Evaluating statements on a packet

What a list of statements does with a packet. Statements are taken from left to right; one that does
not hold ends the evaluation without a verdict. A match on an address field holds for packets of the
field's family only, and no match holds for a packet that lacks the field.
-/

namespace FlowFence

def AddressValue.holds : AddressValue → Address → Bool
  | .host expected, address => address == expected
  | .block base length, address => decide (base.AgreesOn length address)

def Packet.address? (packet : Packet) : Program.Direction → Option Address
  | .source => packet.source?
  | .destination => packet.destination?

def Packet.port? (packet : Packet) : Program.Direction → Option Nat
  | .source => packet.sourcePort?
  | .destination => packet.destinationPort?

/-- Whether a statement ends the evaluation, and if so, whether the packet is dropped. -/
def Statement.verdict? (packet : Packet) (exceeds : Limiter) : Statement → Option Bool
  | .address field value =>
      if packet.family = field.family ∧ (packet.address? field.direction).any value.holds then none
      else some false
  | .port direction value => if packet.port? direction = some value then none else some false
  | .protocol value => if packet.protocol.toNat = value then none else some false
  | .limit unit rate above => if exceeds unit rate = above then none else some false
  | .countNamed _ => none
  | .count _ _ => none
  | .drop => some true

def Statement.drops (packet : Packet) (exceeds : Limiter) : List Statement → Bool
  | [] => false
  | statement :: rest =>
      match statement.verdict? packet exceeds with
      | some dropped => dropped
      | none => drops packet exceeds rest

end FlowFence
