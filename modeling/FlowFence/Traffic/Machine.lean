import FlowFence.Program.Basic
import FlowFence.Traffic.Packet

/-!
# Running a program on a packet

The register machine that filter programs are written for. Expressions run in order on registers of
bytes. One that does not hold ends the run without a verdict, as the end of the program does; the
packet then goes on to the next rule. A load from behind the end of a header does not hold. Whether
traffic exceeds a rate is up to the limiter, which is a parameter; counting has no part in the
verdict.
-/

namespace FlowFence

/-- Whether the traffic that a packet belongs to exceeds a rate per second. -/
abbrev Limiter := LimitUnit → Nat → Bool

abbrev Registers := Nat → List UInt8

inductive Progress where
  /-- The run goes on with these registers. -/
  | next (registers : Registers)
  /-- The run ends without a verdict. -/
  | stop
  /-- The run ends and the packet is dropped. -/
  | drop

def Registers.set (registers : Registers) (target : Nat) (bytes : List UInt8) : Registers :=
  fun register => if register = target then bytes else registers register

def Progress.onlyIf (condition : Bool) (registers : Registers) : Progress :=
  if condition then .next registers else .stop

def Packet.header (packet : Packet) : Header → List UInt8
  | .network => packet.networkHeader
  | .transport => packet.transportHeader

/-- Bytes masked and then flipped, position by position. -/
def maskedBytes (kept flip bytes : List UInt8) : List UInt8 :=
  List.zipWith (· ^^^ ·) (List.zipWith (· &&& ·) bytes kept) flip

def Expression.step (packet : Packet) (exceeds : Limiter) (registers : Registers) :
    Expression → Progress
  | .load header offset length target =>
      match slice? offset length (packet.header header) with
      | some bytes => .next (registers.set target bytes)
      | none => .stop
  | .mask source target length kept flip =>
      .next (registers.set target (maskedBytes kept flip ((registers source).take length)))
  | .compare register data => .onlyIf (registers register == data) registers
  | .loadProtocol target => .next (registers.set target [packet.protocol])
  | .limit unit rate above => .onlyIf (exceeds unit rate == above) registers
  | .counterRef _ => .next registers
  | .counter _ _ => .next registers
  | .drop => .drop

/-- Whether the run of a program on a packet, started with the given registers, drops it. -/
def Program.dropsFrom (packet : Packet) (exceeds : Limiter) : Registers → Program → Bool
  | _, [] => false
  | registers, expression :: rest =>
      match expression.step packet exceeds registers with
      | .next registers => dropsFrom packet exceeds registers rest
      | .stop => false
      | .drop => true

/-- Registers that hold nothing, as at the start of every rule. -/
def Registers.clear : Registers :=
  fun _ => []

def Program.drops (program : Program) (packet : Packet) (exceeds : Limiter) : Bool :=
  Program.dropsFrom packet exceeds .clear program

@[simp] theorem Registers.set_same (registers : Registers) (target : Nat) (bytes : List UInt8) :
    registers.set target bytes target = bytes := by
  simp [Registers.set]

theorem Registers.set_other (registers : Registers) {target register : Nat} (bytes : List UInt8)
    (h : register ≠ target) : registers.set target bytes register = registers register := by
  simp [Registers.set, h]

end FlowFence
