import FlowFence.Text.BaseNumeral

/-!
# Traffic filtering actions

The actions that an extended community of a flow-spec route can ask for, by their type code.
-/

namespace FlowFence

inductive Action where
  /-- Limit the traffic to a number of bytes per second. -/
  | rateBytes
  /-- Sample the traffic or end the evaluation of rules. -/
  | trafficAction
  /-- Redirect the traffic to another routing instance. -/
  | redirect
  /-- Mark the traffic with a service class. -/
  | trafficMarking
  /-- Limit the traffic to a number of packets per second. -/
  | ratePackets
deriving DecidableEq, Inhabited

namespace Action

def code : Action → Nat
  | .rateBytes => 0x8006
  | .trafficAction => 0x8007
  | .redirect => 0x8008
  | .trafficMarking => 0x8009
  | .ratePackets => 0x800c

def all : List Action :=
  [.rateBytes, .trafficAction, .redirect, .trafficMarking, .ratePackets]

def ofCode? (code : Int) : Option Action :=
  all.find? fun action => (action.code : Int) = code

def isRate : Action → Bool
  | .rateBytes => true
  | .ratePackets => true
  | _ => false

def name : Action → String
  | .rateBytes => "traffic-rate-bytes"
  | .trafficAction => "traffic-action"
  | .redirect => "redirect"
  | .trafficMarking => "traffic-marking"
  | .ratePackets => "traffic-rate-packets"

def unknownCodeMessage (code : Int) : String :=
  "unknown flowspec action code: " ++ String.ofList (Text.wordHexadecimal code)

theorem mem_all (action : Action) : action ∈ all := by
  cases action <;> decide

@[simp] theorem ofCode?_code (action : Action) : ofCode? action.code = some action := by
  cases action <;> decide

end Action

end FlowFence
