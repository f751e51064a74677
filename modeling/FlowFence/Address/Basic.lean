import FlowFence.Power

/-!
# Network addresses

An address of either family is a bit vector of the family's width. Its bytes and its sixteen-bit
groups are read off from the most significant end.
-/

namespace FlowFence

inductive Family where
  | ipv4
  | ipv6
deriving DecidableEq, Inhabited

namespace Family

def byteCount : Family → Nat
  | .ipv4 => 4
  | .ipv6 => 16

def width : Family → Nat
  | .ipv4 => 32
  | .ipv6 => 128

theorem width_eq (family : Family) : family.width = 8 * family.byteCount := by
  cases family <;> rfl

end Family

/-- The bytes of a bit vector of `count` bytes, the most significant one first. -/
def bigEndian {width : Nat} (count : Nat) (bits : BitVec width) : List UInt8 :=
  (List.range count).map fun i => UInt8.ofBitVec (bits.extractLsb' (8 * (count - 1 - i)) 8)

def ofBigEndian (bytes : List UInt8) : Nat :=
  bytes.foldl (fun value b => value * 256 + b.toNat) 0

structure Address where
  family : Family
  bits : BitVec family.width
deriving DecidableEq

instance : Inhabited Address := ⟨⟨.ipv4, 0⟩⟩

namespace Address

def v4 (bits : BitVec 32) : Address :=
  ⟨.ipv4, bits⟩

def v6 (bits : BitVec 128) : Address :=
  ⟨.ipv6, bits⟩

/-- The bytes of an address in network order. -/
def bytes (address : Address) : List UInt8 :=
  bigEndian address.family.byteCount address.bits

def ofBytes? (bytes : List UInt8) : Option Address :=
  if bytes.length = 4 then some (v4 (BitVec.ofNat 32 (ofBigEndian bytes)))
  else if bytes.length = 16 then some (v6 (BitVec.ofNat 128 (ofBigEndian bytes)))
  else none

/-- The eight sixteen-bit groups of a wide bit vector, the most significant one first. -/
def groups (bits : BitVec 128) : List Nat :=
  (List.range 8).map fun i => bits.toNat / 65536 ^ (7 - i) % 65536

def ofGroups (values : List Nat) : BitVec 128 :=
  BitVec.ofNat 128 (values.foldl (fun total group => total * 65536 + group) 0)

end Address

@[simp] theorem length_bigEndian {width : Nat} (count : Nat) (bits : BitVec width) :
    (bigEndian count bits).length = count := by
  simp [bigEndian]

namespace Address

@[simp] theorem length_bytes (address : Address) :
    address.bytes.length = address.family.byteCount := by
  simp [bytes]

end Address

end FlowFence
