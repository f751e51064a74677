import FlowFence.Address.Text

/-!
# Address blocks

A network is an address and a length: it holds the addresses of the same family that agree with it
on as many leading bits. Built from an address and a length, or read from text, it is canonical:
the bits behind the length are clear, so equal blocks are equal values.
-/

namespace FlowFence

structure Network where
  base : Address
  length : Nat
deriving DecidableEq, Inhabited

inductive NetworkError where
  /-- The part before the slash is no address. -/
  | address (text : String)
  /-- There is no slash, or no length of eight bits behind the last one. -/
  | malformed (text : String)
  /-- The length exceeds the width of the address. -/
  | length (found greatest : Nat)
deriving DecidableEq

def NetworkError.message : NetworkError → String
  | .address text => "invalid IP address format: " ++ text
  | .malformed text => "invalid IP prefix format: " ++ text
  | .length found greatest =>
      "invalid IP prefix format: prefix length " ++ toString found ++ " exceeds maximum " ++
        toString greatest ++ " for address type"

namespace Network

def mask (family : Family) (length : Nat) : BitVec family.width :=
  BitVec.allOnes family.width <<< (family.width - length)

def make? (address : Address) (length : Nat) : Except NetworkError Network :=
  if length ≤ address.family.width then
    .ok ⟨⟨address.family, address.bits &&& mask address.family length⟩, length⟩
  else
    .error (.length length address.family.width)

theorem make?_of_le {address : Address} {length : Nat} (h : length ≤ address.family.width) :
    make? address length =
      .ok ⟨⟨address.family, address.bits &&& mask address.family length⟩, length⟩ := by
  simp [make?, h]

theorem make?_of_lt {address : Address} {length : Nat} (h : address.family.width < length) :
    make? address length = .error (.length length address.family.width) := by
  simp [make?, Nat.not_le.mpr h]

def family (network : Network) : Family :=
  network.base.family

def baseBytes (network : Network) : List UInt8 :=
  network.base.bytes

def maskBytes (network : Network) : List UInt8 :=
  bigEndian network.family.byteCount (mask network.family network.length)

@[simp] theorem length_maskBytes (network : Network) :
    network.maskBytes.length = network.family.byteCount := by
  simp [maskBytes]

@[simp] theorem length_baseBytes (network : Network) :
    network.baseBytes.length = network.family.byteCount := by
  simp [baseBytes, family]

def text (network : Network) : List Char :=
  network.base.text ++ '/' :: Text.decimal network.length

/-- The block that a text denotes; the address part ends at the last slash. -/
def parse? (text : List Char) : Except NetworkError Network :=
  match Text.cutLast? '/' text with
  | some (addressText, lengthText) =>
      match Address.parse? addressText with
      | some address =>
          match Text.word? 255 lengthText with
          | some length => make? address length
          | none => .error (.malformed (String.ofList text))
      | none => .error (.address (String.ofList addressText))
  | none => .error (.malformed (String.ofList text))

end Network

end FlowFence
