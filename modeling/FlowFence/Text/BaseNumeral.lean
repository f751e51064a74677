import FlowFence.Power
import FlowFence.Text.Blank
import FlowFence.Text.Numeral

/-!
# Numerals that name their base

Numbers whose base shows in front: `0x` is hexadecimal, `0b` binary, `0o` or a further leading zero
octal, anything else decimal. Values are those of 64-bit words, unsigned or with a sign in front.
-/

namespace FlowFence

namespace Text

def baseAndDigits : List Char → Nat × List Char
  | '0' :: mark :: rest =>
      if mark = 'x' ∨ mark = 'X' then (16, rest)
      else if mark = 'b' ∨ mark = 'B' then (2, rest)
      else if mark = 'o' ∨ mark = 'O' then (8, rest)
      else (8, mark :: rest)
  | text => (10, text)

/-- An unsigned numeral below `2 ^ 64`, with blanks around it allowed. -/
def unsignedNumeral? (text : List Char) : Option Nat :=
  let (base, digits) := baseAndDigits (trim text)
  (numeral? base digits).filter (· < 2 ^ 64)

/-- A numeral of magnitude below `2 ^ 63` with one sign in front of it at most. -/
def signedNumeral? (text : List Char) : Option Int :=
  let (negative, digits) := takeSign text
  ((unsignedNumeral? digits).filter (· < 2 ^ 63)).map fun magnitude =>
    if negative then -(magnitude : Int) else (magnitude : Int)

/-- The hexadecimal text of a signed 64-bit word in two's complement, after `0x`. -/
def wordHexadecimal (value : Int) : List Char :=
  '0' :: 'x' :: hexadecimal (value % 2 ^ 64).toNat

end Text

end FlowFence
