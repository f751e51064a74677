import FlowFence.Route.Basic
import FlowFence.Traffic.Machine

/-!
# The traffic of a route

Which packets a route is about, said on the addresses, the protocol and the ports of a packet alone,
and which of them its action asks to be dropped.
-/

namespace FlowFence

/-- The bit of an address at a position, counted from the most significant one. -/
def Address.bit (address : Address) (position : Nat) : Bool :=
  address.bits.getMsbD position

structure Address.AgreesOn (count : Nat) (a b : Address) : Prop where
  family : a.family = b.family
  bits : ∀ i < count, a.bit i = b.bit i

def Network.Holds (network : Network) (address : Address) : Prop :=
  network.base.AgreesOn network.length address

/-- Whether a number meets a criterion of which zero stands for any value, or for none at all. -/
def IsValueOrAny (criterion : Nat) (value : Option Nat) : Prop :=
  criterion = 0 ∨ value = some criterion

structure Criteria.IsMetBy (criteria : Criteria) (packet : Packet) : Prop where
  source : ∀ network ∈ criteria.source, ∃ address ∈ packet.source?, network.Holds address
  destination :
    ∀ network ∈ criteria.destination, ∃ address ∈ packet.destination?, network.Holds address
  protocol : IsValueOrAny criteria.protocol (some packet.protocol.toNat)
  sourcePort : IsValueOrAny criteria.sourcePort packet.sourcePort?
  destinationPort : IsValueOrAny criteria.destinationPort packet.destinationPort?

/-- What the rate of an action counts, if its argument is a rate. -/
def Action.RateOf : Action → LimitUnit → Prop
  | .rateBytes, unit => unit = .bytes
  | .ratePackets, unit => unit = .packets
  | _, _ => False

/--
Whether a route asks for a packet to be dropped: the packet meets its criteria, and its action is a
rate that is zero or exceeded.
-/
structure Route.AsksToDrop (route : Route) (packet : Packet) (exceeds : Limiter) : Prop where
  criteria : route.criteria.IsMetBy packet
  rate : ∃ unit, route.action.RateOf unit ∧
    (route.argument = 0 ∨ exceeds unit route.argument.toNat = true)

/-! ## Decidability -/

instance (count : Nat) (a b : Address) : Decidable (a.AgreesOn count b) :=
  decidable_of_iff (a.family = b.family ∧ ∀ i < count, a.bit i = b.bit i)
    ⟨fun h => ⟨h.1, h.2⟩, fun h => ⟨h.family, h.bits⟩⟩

instance (network : Network) (address : Address) : Decidable (network.Holds address) :=
  inferInstanceAs (Decidable (network.base.AgreesOn network.length address))

instance (criterion : Nat) (value : Option Nat) : Decidable (IsValueOrAny criterion value) :=
  inferInstanceAs (Decidable (criterion = 0 ∨ value = some criterion))

instance (criteria : Criteria) (packet : Packet) : Decidable (criteria.IsMetBy packet) :=
  decidable_of_iff
    ((∀ network ∈ criteria.source, ∃ address ∈ packet.source?, network.Holds address) ∧
      (∀ network ∈ criteria.destination,
        ∃ address ∈ packet.destination?, network.Holds address) ∧
      IsValueOrAny criteria.protocol (some packet.protocol.toNat) ∧
      IsValueOrAny criteria.sourcePort packet.sourcePort? ∧
      IsValueOrAny criteria.destinationPort packet.destinationPort?)
    ⟨fun ⟨hs, hd, hp, hsp, hdp⟩ => ⟨hs, hd, hp, hsp, hdp⟩,
      fun ⟨hs, hd, hp, hsp, hdp⟩ => ⟨hs, hd, hp, hsp, hdp⟩⟩

end FlowFence
