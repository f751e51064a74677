import FlowFence.Power

/-!
# Double-precision numbers

Binary floating-point numbers with 53 significant bits, as exact values: a finite number is its
mantissa times a power of two. Every operation computes the exact rational result and rounds it
once, to the nearest number and on a tie to the even mantissa.
-/

namespace FlowFence

inductive Binary64 where
  /-- The value `mantissa * 2 ^ exponent`, negated on demand. -/
  | finite (negative : Bool) (mantissa : Nat) (exponent : Int)
  | infinite (negative : Bool)
  | nan
deriving DecidableEq, Inhabited

namespace Binary64

def leastExponent : Int := -1074

def greatestExponent : Int := 971

def mantissaBound : Nat := 2 ^ 53

def zero : Binary64 := .finite false 0 leastExponent

/-- The quotient of two numbers, rounded to the nearest integer and on a tie to the even one. -/
def roundQuotient (numerator denominator : Nat) : Nat :=
  let quotient := numerator / denominator
  let twice := 2 * (numerator % denominator)
  if twice < denominator then quotient
  else if denominator < twice then quotient + 1
  else quotient + quotient % 2

/-- A ratio divided by `2 ^ exponent`, as numerator and denominator. -/
def scaleRatio (numerator denominator : Nat) (exponent : Int) : Nat × Nat :=
  if exponent < 0 then (numerator * 2 ^ (-exponent).toNat, denominator)
  else (numerator, denominator * 2 ^ exponent.toNat)

/-- The exponent of the last mantissa bit of the number nearest to a ratio. -/
def lastBit (numerator denominator : Nat) : Int :=
  let guess : Int := (Nat.log2 numerator : Int) - (Nat.log2 denominator : Int) - 53
  let (n, d) := scaleRatio numerator denominator guess
  let exact := if n / d < mantissaBound then guess else guess + 1
  max exact leastExponent

/-- The number with a sign nearest to the ratio of two naturals. -/
def ofRatio (negative : Bool) (numerator denominator : Nat) : Binary64 :=
  if numerator = 0 then
    .finite negative 0 leastExponent
  else
    let exponent := lastBit numerator denominator
    let (n, d) := scaleRatio numerator denominator exponent
    let mantissa := roundQuotient n d
    let (mantissa, exponent) :=
      if mantissa = mantissaBound then (mantissa / 2, exponent + 1) else (mantissa, exponent)
    if greatestExponent < exponent then .infinite negative
    else .finite negative mantissa exponent

def ofNat (n : Nat) : Binary64 :=
  ofRatio false n 1

/-- The number nearest to `value * 2 ^ exponent`. -/
def ofScaled (negative : Bool) (value : Nat) (exponent : Int) : Binary64 :=
  let (n, d) := scaleRatio value 1 (-exponent)
  ofRatio negative n d

/-- A signed mantissa brought to a lower exponent. -/
def aligned (negative : Bool) (mantissa : Nat) (exponent target : Int) : Int :=
  let magnitude : Int := (mantissa * 2 ^ (exponent - target).toNat : Nat)
  if negative then -magnitude else magnitude

def add : Binary64 → Binary64 → Binary64
  | .nan, _ => .nan
  | _, .nan => .nan
  | .infinite a, .infinite b => if a = b then .infinite a else .nan
  | .infinite a, .finite .. => .infinite a
  | .finite .., .infinite b => .infinite b
  | .finite a m e, .finite b n f =>
      let target := min e f
      let sum := aligned a m e target + aligned b n f target
      if sum = 0 then .finite (a && b) 0 leastExponent
      else ofScaled (sum < 0) sum.natAbs target

def mul : Binary64 → Binary64 → Binary64
  | .nan, _ => .nan
  | _, .nan => .nan
  | .infinite a, .infinite b => .infinite (a != b)
  | .infinite a, .finite b n _ => if n = 0 then .nan else .infinite (a != b)
  | .finite a m _, .infinite b => if m = 0 then .nan else .infinite (a != b)
  | .finite a m e, .finite b n f => ofScaled (a != b) (m * n) (e + f)

/-- Whether one number is at most another; a NaN is comparable to nothing. -/
def le : Binary64 → Binary64 → Bool
  | .nan, _ => false
  | _, .nan => false
  | .infinite a, .infinite b => a || !b
  | .infinite a, .finite .. => a
  | .finite .., .infinite b => !b
  | .finite a m e, .finite b n f =>
      let target := min e f
      aligned a m e target ≤ aligned b n f target

def isFinite : Binary64 → Bool
  | .finite .. => true
  | _ => false

end Binary64

end FlowFence
