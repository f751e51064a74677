import FlowFence.Text.Quoted

/-!
# Filter programs

The expressions of the packet filter's register machine and programs of them. A program is one
rule: its expressions run in order, and one that does not hold ends the run of the rule.
-/

namespace FlowFence

inductive Header where
  | network
  | transport
deriving DecidableEq, Inhabited

inductive LimitUnit where
  | packets
  | bytes
deriving DecidableEq, Inhabited

/-- One operation of the register machine. -/
inductive Expression where
  /-- Load `length` bytes at an offset of a header into a register. -/
  | load (header : Header) (offset length target : Nat)
  /-- Set the target register to the source register, masked and then flipped bit by bit. -/
  | mask (source target length : Nat) (mask flip : List UInt8)
  /-- Go on only if a register holds the given bytes. -/
  | compare (register : Nat) (data : List UInt8)
  /-- Load the transport protocol number into a register. -/
  | loadProtocol (target : Nat)
  /-- Go on only if traffic exceeds a rate per second, or without `above` if it does not. -/
  | limit (unit : LimitUnit) (rate : Nat) (above : Bool)
  /-- Select the named counter for the next expression. -/
  | counterRef (name : String)
  /-- Count packets and bytes from the given values on. -/
  | counter (packets bytes : Nat)
  | drop
deriving DecidableEq, Inhabited

abbrev Program := List Expression

namespace Expression

def isLimit : Expression → Bool
  | .limit .. => true
  | _ => false

def headerName : Header → String
  | .network => "NetworkHeader"
  | .transport => "TransportHeader"

def unitName : LimitUnit → String
  | .packets => "Packets"
  | .bytes => "Bytes"

def bytesText (values : List UInt8) : String :=
  "[" ++ String.intercalate ", " (values.map fun b => toString b.toNat) ++ "]"

/-- An expression by its kind and its fields, as reports about programs show it. -/
def description : Expression → String
  | .load header offset length target =>
      "PayloadLoad \x7b base: " ++ headerName header ++ ", offset: " ++ toString offset ++
        ", len: " ++ toString length ++ ", dest_register: " ++ toString target ++ " \x7d"
  | .mask source target length kept flip =>
      "BitwiseMask \x7b source_register: " ++ toString source ++ ", dest_register: " ++
        toString target ++ ", len: " ++ toString length ++ ", mask: " ++ bytesText kept ++
        ", xor: " ++ bytesText flip ++ " \x7d"
  | .compare register data =>
      "Compare \x7b register: " ++ toString register ++ ", op: Eq, data: " ++ bytesText data ++
        " \x7d"
  | .loadProtocol target =>
      "MetaMatch \x7b key: L4Proto, register: " ++ toString target ++ " \x7d"
  | .limit unit rate above =>
      "RateLimit \x7b limit_type: " ++ unitName unit ++ ", rate: " ++ toString rate ++
        ", unit: Second, over: " ++ toString above ++ " \x7d"
  | .counterRef name =>
      "CounterRef \x7b object_type: Counter, name: " ++
        String.ofList (Text.quoted name.toList) ++ " \x7d"
  | .counter packets bytes =>
      "Counter \x7b packets: " ++ toString packets ++ ", bytes: " ++ toString bytes ++ " \x7d"
  | .drop => "Verdict \x7b kind: Drop \x7d"

end Expression

namespace Program

def isRateLimited (program : Program) : Bool :=
  program.any Expression.isLimit

end Program

end FlowFence
