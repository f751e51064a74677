import FlowFence.Address.Text
import FlowFence.Json.Value
import FlowFence.Program.Compile

/-!
# Statements

The filter tool's own language for rules. A statement says in one phrase what a program says in one
to three expressions; a rule is a list of statements that is evaluated from left to right.
-/

namespace FlowFence

inductive AddressValue where
  /-- The field equals an address. -/
  | host (address : Address)
  /-- The field agrees with an address on the given number of leading bits. -/
  | block (address : Address) (length : Nat)
deriving DecidableEq, Inhabited

structure AddressField where
  family : Family
  direction : Program.Direction
deriving DecidableEq, Inhabited

inductive Statement where
  | address (field : AddressField) (value : AddressValue)
  | port (direction : Program.Direction) (value : Nat)
  | protocol (value : Nat)
  | limit (unit : LimitUnit) (rate : Nat) (above : Bool)
  | countNamed (name : String)
  /-- Count in a counter of the rule's own that starts at the given values. -/
  | count (packets bytes : Nat)
  | drop
deriving DecidableEq, Inhabited

namespace AddressField

def headerName (field : AddressField) : String :=
  match field.family with
  | .ipv4 => "ip"
  | .ipv6 => "ip6"

def name (field : AddressField) : String :=
  match field.direction with
  | .source => "saddr"
  | .destination => "daddr"

def at? (offset length : Nat) : Option AddressField :=
  match offset, length with
  | 12, 4 => some ⟨.ipv4, .source⟩
  | 16, 4 => some ⟨.ipv4, .destination⟩
  | 8, 16 => some ⟨.ipv6, .source⟩
  | 24, 16 => some ⟨.ipv6, .destination⟩
  | _, _ => none

end AddressField

namespace Statement

def portName : Program.Direction → String
  | .source => "sport"
  | .destination => "dport"

def portAt? : Nat → Option Program.Direction
  | 0 => some .source
  | 2 => some .destination
  | _ => none

def matchJson (left right : Json) : Json :=
  .keyed "match" (.object [("op", .text "=="), ("left", left), ("right", right)])

/-- The left side of a match on a header field. -/
def fieldJson (header field : String) : Json :=
  .keyed "payload" (.object [("protocol", .text header), ("field", .text field)])

def addressJson (address : Address) : Json :=
  .text (String.ofList address.text)

def valueJson : AddressValue → Json
  | .host base => addressJson base
  | .block base length =>
      .keyed "prefix" (.object [("addr", addressJson base), ("len", .natural length)])

/-- The parts of a limit; the unit is named for bytes only, the direction for excess only. -/
def limitJson (unit : LimitUnit) (rate : Nat) (above : Bool) : Json :=
  .object
    ([("rate", .natural rate), ("per", .text "second")] ++
      (if unit = .bytes then [("rate_unit", .text "bytes")] else []) ++
      (if above then [("inv", .boolean true)] else []))

def toJson : Statement → Json
  | .address field value => matchJson (fieldJson field.headerName field.name) (valueJson value)
  | .port direction value => matchJson (fieldJson "th" (portName direction)) (.natural value)
  | .protocol value =>
      matchJson (.keyed "meta" (.object [("key", .text "l4proto")])) (.natural value)
  | .limit unit rate above => .keyed "limit" (limitJson unit rate above)
  | .countNamed name => .keyed "counter" (.text name)
  | .count packets bytes =>
      .keyed "counter" (.object [("packets", .natural packets), ("bytes", .natural bytes)])
  | .drop => .keyed "drop" .null

end Statement

end FlowFence
