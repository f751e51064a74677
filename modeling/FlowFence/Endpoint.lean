import FlowFence.Address.Text
import FlowFence.Text.Cut

/-!
# Endpoints

An address with a port, written `ADDRESS:PORT`. An IPv6 address stands in brackets there and may
carry the number of an interface behind a percent sign; zero stands for none.
-/

namespace FlowFence

structure Endpoint where
  address : Address
  interface : Nat
  port : Nat
deriving DecidableEq, Inhabited

namespace Endpoint

/-- The value of one or more decimal digits, leading zeros allowed, below a bound. -/
def below? (bound : Nat) (digits : List Char) : Option Nat :=
  (Text.numeral? 10 digits).filter (· < bound)

def port? (digits : List Char) : Option Nat :=
  below? (2 ^ 16) digits

def bracketed? (text : List Char) : Option (BitVec 128 × Nat) :=
  match Text.cut? ['%'] text with
  | none => (Address.parseV6? text).map (·, 0)
  | some (text, digits) => do
      let bits ← Address.parseV6? text
      let interface ← below? (2 ^ 32) digits
      some (bits, interface)

def parse? (text : List Char) : Option Endpoint :=
  match text with
  | '[' :: rest => do
      let (inside, digits) ← Text.cut? "]:".toList rest
      let (bits, interface) ← bracketed? inside
      some ⟨.v6 bits, interface, ← port? digits⟩
  | _ => do
      let (host, digits) ← Text.cut? [':'] text
      some ⟨.v4 (← Address.parseV4? host), 0, ← port? digits⟩

def hostText (address : Address) (interface : Nat) : List Char :=
  match address.family with
  | .ipv4 => address.text
  | .ipv6 =>
      let suffix := if interface = 0 then [] else '%' :: Text.decimal interface
      '[' :: address.text ++ suffix ++ [']']

def text (endpoint : Endpoint) : List Char :=
  hostText endpoint.address endpoint.interface ++ ':' :: Text.decimal endpoint.port

end Endpoint

end FlowFence
