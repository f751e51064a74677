import FlowFence.Binary64.Basic
import FlowFence.Json.Value
import FlowFence.Json.Written

/-!
# What written JSON denotes

A written value denotes a value if the code units of its texts pair up to characters, its numbers
have a finite double-precision value and its lists and objects do not nest too deep. Of the members
of one name the last one counts, and members are ordered by name.
-/

namespace FlowFence

namespace Json

/-- How many lists and objects may stand inside one another. -/
def deepestNesting : Nat := 127

def largestWord : Nat := 2 ^ 64 - 1

/-- The text of units: each high surrogate needs a low one right after it, no other may occur. -/
def textOfUnits? : List TextUnit → Option (List Char)
  | [] => some []
  | .char c :: rest => (textOfUnits? rest).map (c :: ·)
  | .code high :: .code low :: rest =>
      if 0xD800 ≤ high ∧ high < 0xDC00 then
        if 0xDC00 ≤ low ∧ low < 0xE000 then
          let scalar := 0x10000 + (high - 0xD800) * 0x400 + (low - 0xDC00)
          (textOfUnits? rest).map (Char.ofNat scalar :: ·)
        else none
      else if 0xDC00 ≤ high ∧ high < 0xE000 then none
      else (textOfUnits? (.code low :: rest)).map (Char.ofNat high :: ·)
  | .code unit :: rest =>
      if 0xD800 ≤ unit ∧ unit < 0xE000 then none
      else (textOfUnits? rest).map (Char.ofNat unit :: ·)

/--
The leading digits of a number whose value fits a word, as a value and the count of digits used:
once a digit would pass the limit, it and all after it are left out.
-/
def leadingWord (value used : Nat) : List Char → Nat × Nat
  | [] => (value, used)
  | c :: rest =>
      let next := value * 10 + (c.toNat - '0'.toNat)
      if next ≤ largestWord then leadingWord next (used + 1) rest else (value, used)

/--
Whether a number has a finite double-precision value: the product of its leading digits and a power
of ten, each rounded on its own.
-/
def isRepresentable (whole fraction : List Char) (exponent : Int) : Bool :=
  let (digits, used) := leadingWord 0 0 (whole ++ fraction)
  let power := exponent + whole.length - used
  if digits = 0 ∨ power < 0 then true
  else if 308 < power then false
  else ((Binary64.ofNat digits).mul (Binary64.ofNat (10 ^ power.toNat))).isFinite

def numberLiteral (negative : Bool) (whole fraction : List Char) (exponent : Option Int) : String :=
  let sign := if negative then ['-'] else []
  let fraction := if fraction.isEmpty then [] else '.' :: fraction
  let exponent := match exponent with
    | some n => 'e' :: Text.signedDecimal n
    | none => []
  String.ofList (sign ++ whole ++ fraction ++ exponent)

/--
The value of a number. A plain integer of 64 bits is one; minus zero, wider integers and numbers
with a fraction or an exponent are decimals.
-/
def valueOfNumber? (negative : Bool) (whole fraction : List Char) (exponent : Option Int) :
    Option Json :=
  let magnitude := (Text.numeral? 10 whole).getD 0
  if fraction.isEmpty ∧ exponent.isNone ∧ !negative ∧ magnitude ≤ largestWord then
    some (.integer magnitude)
  else if fraction.isEmpty ∧ exponent.isNone ∧ negative ∧ 0 < magnitude ∧ magnitude ≤ 2 ^ 63 then
    some (.integer (-(magnitude : Int)))
  else if isRepresentable whole fraction (exponent.getD 0) then
    some (.decimal (numberLiteral negative whole fraction exponent))
  else none

/-- Put a member into members ordered by name, in the place of an earlier one of that name. -/
def putMember (key : String) (value : Json) : List (String × Json) → List (String × Json)
  | [] => [(key, value)]
  | (name, old) :: members =>
      if key < name then (key, value) :: (name, old) :: members
      else if key = name then (key, value) :: members
      else (name, old) :: putMember key value members

/-- Members ordered by name, the last one of each name. -/
def orderMembers (members : List (String × Json)) : List (String × Json) :=
  members.foldl (fun ordered (key, value) => putMember key value ordered) []

mutual

/-- The value of a written value inside which lists and objects may nest to the given depth. -/
def ofWritten? (depth : Nat) : Written → Option Json
  | .null => some .null
  | .boolean value => some (.boolean value)
  | .number negative whole fraction exponent => valueOfNumber? negative whole fraction exponent
  | .text units => (textOfUnits? units).map fun text => .text (String.ofList text)
  | .list items =>
      if depth = 0 then none else (itemsOfWritten? (depth - 1) items).map .list
  | .object members =>
      if depth = 0 then none
      else (membersOfWritten? (depth - 1) members).map fun values => .object (orderMembers values)

def itemsOfWritten? (depth : Nat) : List Written → Option (List Json)
  | [] => some []
  | item :: items =>
      match ofWritten? depth item, itemsOfWritten? depth items with
      | some value, some values => some (value :: values)
      | _, _ => none

def membersOfWritten? (depth : Nat) : List (List TextUnit × Written) → Option (List (String × Json))
  | [] => some []
  | (key, item) :: members =>
      match textOfUnits? key, ofWritten? depth item, membersOfWritten? depth members with
      | some name, some value, some values => some ((String.ofList name, value) :: values)
      | _, _, _ => none

end

def parse? (text : List Char) : Option Json :=
  (Written.ofText? text).bind (ofWritten? deepestNesting)

end Json

end FlowFence
