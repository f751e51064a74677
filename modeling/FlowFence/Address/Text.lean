import FlowFence.Address.Basic
import FlowFence.Text.Cut
import FlowFence.Text.Numeral

/-!
# Texts of addresses

Addresses of the first family are four decimal octets without leading zeros. Those of the second
are eight hexadecimal groups, the last two of which may be written as octets, and a double colon
stands for one or more groups of zero. The text written for an address shortens the longest run of
two or more zero groups, the first of them on a tie, and spells a mapped address of the first
family with octets.
-/

namespace FlowFence

namespace Address

/-! ## Reading -/

/-- An octet: up to three digits of value at most 255, and no leading zero. -/
def octet? (text : List Char) : Option Nat :=
  if 3 < text.length ∨ (1 < text.length ∧ text.head? = some '0') then none
  else (Text.numeral? 10 text).filter (· ≤ 255)

def octets? (text : List Char) : Option (Nat × Nat × Nat × Nat) :=
  match Text.splitWhere (· == '.') text with
  | [a, b, c, d] =>
      match octet? a, octet? b, octet? c, octet? d with
      | some a, some b, some c, some d => some (a, b, c, d)
      | _, _, _, _ => none
  | _ => none

def parseV4? (text : List Char) : Option (BitVec 32) :=
  (octets? text).map fun (a, b, c, d) =>
    BitVec.ofNat 32 (((a * 256 + b) * 256 + c) * 256 + d)

/-- A group: one to four hexadecimal digits. -/
def group? (text : List Char) : Option Nat :=
  if 4 < text.length then none else Text.numeral? 16 text

/-- The groups of pieces; with `dotted` the last piece may be four octets, which are two groups. -/
def groupsOf? (dotted : Bool) : List (List Char) → Option (List Nat)
  | [] => some []
  | piece :: pieces =>
      match group? piece with
      | some group => (groupsOf? dotted pieces).map (group :: ·)
      | none =>
          if dotted ∧ pieces.isEmpty then
            (octets? piece).map fun (a, b, c, d) => [a * 256 + b, c * 256 + d]
          else none

/-- The groups on one side of a double colon, where there may be none at all. -/
def side? (dotted : Bool) (text : List Char) : Option (List Nat) :=
  if text.isEmpty then some [] else groupsOf? dotted (Text.splitWhere (· == ':') text)

def parseV6? (text : List Char) : Option (BitVec 128) :=
  match Text.cut? [':', ':'] text with
  | some (front, back) =>
      match side? false front, side? true back with
      | some high, some low =>
          if high.length + low.length ≤ 7 then
            some (ofGroups (high ++ List.replicate (8 - high.length - low.length) 0 ++ low))
          else none
      | _, _ => none
  | none =>
      match groupsOf? true (Text.splitWhere (· == ':') text) with
      | some values => if values.length = 8 then some (ofGroups values) else none
      | none => none

def parse? (text : List Char) : Option Address :=
  match parseV4? text with
  | some bits => some (v4 bits)
  | none => (parseV6? text).map v6

/-! ## Writing -/

def octetsText (value : Nat) : List Char :=
  Text.joined '.' ([value / 2 ^ 24, value / 2 ^ 16 % 256, value / 2 ^ 8 % 256, value % 256].map
    Text.decimal)

def groupsText (values : List Nat) : List Char :=
  Text.joined ':' (values.map Text.hexadecimal)

def zerosAhead (values : List Nat) : Nat :=
  (values.takeWhile (· == 0)).length

/-- The place and length of the longest run of zero groups, the first one on a tie. -/
def longestZeros (values : List Nat) : Nat × Nat :=
  (List.range values.length).foldl
    (fun best place =>
      let length := zerosAhead (values.drop place)
      if best.2 < length then (place, length) else best)
    (0, 0)

def textOfGroups (values : List Nat) : List Char :=
  let (place, length) := longestZeros values
  if length < 2 then groupsText values
  else groupsText (values.take place) ++ [':', ':'] ++ groupsText (values.drop (place + length))

def textV6 (bits : BitVec 128) : List Char :=
  if bits.toNat / 2 ^ 32 = 0xFFFF then
    "::ffff:".toList ++ octetsText (bits.toNat % 2 ^ 32)
  else
    textOfGroups (groups bits)

def text : Address → List Char
  | ⟨.ipv4, bits⟩ => octetsText bits.toNat
  | ⟨.ipv6, bits⟩ => textV6 bits

end Address

end FlowFence
