import FlowFence.Address.Basic

/-!
# Packets

What the filter sees of a packet: the bytes of its network header and of its transport header, and
the number of its transport protocol. Its addresses and ports are read off from where the formats of
the two headers put them. A header may be cut short; a packet then lacks the fields behind the cut.
-/

namespace FlowFence

structure Packet where
  family : Family
  networkHeader : List UInt8
  /-- The number of the transport protocol, behind all extension headers. -/
  protocol : UInt8
  transportHeader : List UInt8
deriving DecidableEq, Inhabited

/-- The bytes from an offset on, unless there are fewer than the given count. -/
def slice? (offset count : Nat) (bytes : List UInt8) : Option (List UInt8) :=
  if offset + count ≤ bytes.length then some ((bytes.drop offset).take count) else none

theorem length_of_slice? {offset count : Nat} {bytes piece : List UInt8}
    (h : slice? offset count bytes = some piece) : piece.length = count := by
  unfold slice? at h
  split at h
  · cases h
    simp only [List.length_take, List.length_drop]
    omega
  · cases h

def Address.ofBytes (family : Family) (bytes : List UInt8) : Address :=
  ⟨family, BitVec.ofNat _ (ofBigEndian bytes)⟩

namespace Packet

/-- How many bytes of a network header precede its addresses, of which the source comes first. -/
def bytesBeforeAddresses : Family → Nat
  | .ipv4 => 12
  | .ipv6 => 8

def addressBehind? (packet : Packet) (count : Nat) : Option Address :=
  (slice? count packet.family.byteCount packet.networkHeader).map (Address.ofBytes packet.family)

def source? (packet : Packet) : Option Address :=
  packet.addressBehind? (bytesBeforeAddresses packet.family)

def destination? (packet : Packet) : Option Address :=
  packet.addressBehind? (bytesBeforeAddresses packet.family + packet.family.byteCount)

def portBehind? (packet : Packet) (count : Nat) : Option Nat :=
  (slice? count 2 packet.transportHeader).map ofBigEndian

/-- The port that a packet comes from: the first two bytes of its transport header. -/
def sourcePort? (packet : Packet) : Option Nat :=
  packet.portBehind? 0

def destinationPort? (packet : Packet) : Option Nat :=
  packet.portBehind? 2

end Packet

end FlowFence
