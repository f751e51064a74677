import FlowFence.Power

/-!
# Single-precision numbers

The value of a 32-bit floating-point pattern as an exact rational, cut off toward zero. A pattern
is one sign bit, eight bits of biased exponent and twenty-three bits of fraction.
-/

namespace FlowFence

namespace Binary32

def isNegative (bits : Nat) : Bool :=
  bits / 2 ^ 31 % 2 = 1

def exponentField (bits : Nat) : Nat :=
  bits / 2 ^ 23 % 2 ^ 8

def fraction (bits : Nat) : Nat :=
  bits % 2 ^ 23

/-- The significand with its hidden bit, which is set unless the exponent field is zero. -/
def significand (bits : Nat) : Nat :=
  if exponentField bits = 0 then fraction bits else fraction bits + 2 ^ 23

/--
The exponent of the last significand bit, plus 150. Numbers without the hidden bit share the
exponent of the smallest numbers with it.
-/
def scale (bits : Nat) : Nat :=
  max (exponentField bits) 1

/-- The least exponent field of a magnitude of `2 ^ 63` or more, an infinity or a NaN. -/
def firstTooLarge : Nat := 190

/--
The integer part of the value, cut off toward zero, if the magnitude is finite and below `2 ^ 63`.
-/
def truncate? (bits : Nat) : Option Int :=
  if firstTooLarge ≤ exponentField bits then none
  else
    let magnitude :=
      if 150 ≤ scale bits then significand bits * 2 ^ (scale bits - 150)
      else significand bits / 2 ^ (150 - scale bits)
    some (if isNegative bits then -(magnitude : Int) else (magnitude : Int))

end Binary32

end FlowFence
