import FlowFence.Binary64.Basic
import FlowFence.Text.Cut
import FlowFence.Text.Numeral

/-!
# Texts of double-precision numbers

The text of a number is the shortest decimal that reads back as the number, the one nearest to it
among those, written without an exponent. A decimal reads as the number nearest to it.
-/

namespace FlowFence

namespace Binary64

/-! ## Writing -/

/-- The decimals `digits * 10 ^ power` that read back as a positive number. -/
structure Interval where
  /-- The value itself, in quarters of the last mantissa bit. -/
  value : Nat
  /-- The least such decimal, or the greatest lower bound. -/
  low : Nat
  /-- The greatest such decimal, or the least upper bound. -/
  high : Nat
  /-- Whether the two ends read back as well. -/
  closed : Bool
  /-- The exponent of a quarter of the last mantissa bit. -/
  exponent : Int

def interval (mantissa : Nat) (exponent : Int) : Interval :=
  let below := if mantissa = mantissaBound / 2 ∧ leastExponent < exponent then 1 else 2
  { value := 4 * mantissa
    low := 4 * mantissa - below
    high := 4 * mantissa + 2
    closed := mantissa % 2 = 0
    exponent := exponent - 2 }

def Interval.contains (i : Interval) (digits : Nat) (power : Int) : Bool :=
  -- both sides over the common factor 2 ^ exponent or 10 ^ power, whichever is negative
  let two := 2 ^ i.exponent.natAbs
  let ten := 10 ^ power.natAbs
  let left := digits * (if 0 ≤ power then ten else 1) * (if i.exponent < 0 then two else 1)
  let unit := (if 0 ≤ i.exponent then two else 1) * (if power < 0 then ten else 1)
  if i.closed then i.low * unit ≤ left && left ≤ i.high * unit
  else i.low * unit < left && left < i.high * unit

/-- The value of an interval divided by `10 ^ power`, as numerator and denominator. -/
def Interval.scaled (i : Interval) (power : Int) : Nat × Nat :=
  let (n, d) := scaleRatio i.value 1 (-i.exponent)
  if 0 ≤ power then (n, d * 10 ^ power.toNat) else (n * 10 ^ (-power).toNat, d)

/--
The number of decimal digits before the point of a positive ratio, negative when zeros follow the
point first: `numerator / denominator` lies in `[10 ^ (p - 1), 10 ^ p)`.
-/
def pointPosition (numerator denominator : Nat) : Int :=
  if denominator ≤ numerator then
    ((Text.decimal (numerator / denominator)).length : Int)
  else
    -- after this many places numerator and denominator have equally many digits
    let guess := (Text.decimal denominator).length - (Text.decimal numerator).length
    let lift := if denominator ≤ numerator * 10 ^ guess then guess else guess + 1
    1 - (lift : Int)

/--
The two grid points with `count` digits next to the value, the nearer one first if both read back;
an exact tie goes to the greater one.
-/
def Interval.shortestWith? (i : Interval) (position : Int) (count : Nat) : Option (Nat × Int) :=
  let power := position - count
  let (n, d) := i.scaled power
  let down := n / d
  let up := down + 1
  match i.contains down power, i.contains up power with
  | true, true => if 2 * (n % d) < d then some (down, power) else some (up, power)
  | true, false => some (down, power)
  | false, true => some (up, power)
  | false, false => none

/-- The digits and power of ten of the shortest decimal that reads back as a positive number. -/
def shortest (mantissa : Nat) (exponent : Int) : Nat × Int :=
  let i := interval mantissa exponent
  let (n, d) := i.scaled 0
  let position := pointPosition n d
  ((List.range 17).findSome? fun count => i.shortestWith? position (count + 1)).getD (0, 0)

/-- The decimal `digits * 10 ^ power` written with a point and without an exponent. -/
def positional (digits : Nat) (power : Int) : List Char :=
  let text := Text.decimal digits
  if 0 ≤ power then
    text ++ List.replicate power.toNat '0'
  else
    let places := (-power).toNat
    let text := Text.padded (places + 1) text
    let fraction := ((text.drop (text.length - places)).reverse.dropWhile (· == '0')).reverse
    let whole := text.take (text.length - places)
    if fraction.isEmpty then whole else whole ++ '.' :: fraction

def text : Binary64 → List Char
  | .nan => "NaN".toList
  | .infinite negative => (if negative then ['-'] else []) ++ "inf".toList
  | .finite negative mantissa exponent =>
      let magnitude :=
        if mantissa = 0 then ['0']
        else
          let (digits, power) := shortest mantissa exponent
          positional digits power
      (if negative then ['-'] else []) ++ magnitude

/-! ## Reading -/

def ofDecimal (negative : Bool) (digits : Nat) (power : Int) : Binary64 :=
  let position : Int := (Text.decimal digits).length + power
  if digits = 0 then .finite negative 0 leastExponent
  else if 400 < position then .infinite negative
  else if position < -400 then .finite negative 0 leastExponent
  else if 0 ≤ power then ofRatio negative (digits * 10 ^ power.toNat) 1
  else ofRatio negative digits (10 ^ (-power).toNat)

def exponentPart? (text : List Char) : Option Int :=
  match text with
  | [] => some 0
  | mark :: rest =>
      if mark = 'e' ∨ mark = 'E' then
        let (negative, digits) := Text.takeSign rest
        (Text.numeral? 10 digits).map fun n => if negative then -(n : Int) else (n : Int)
      else none

/-- The number nearest to an unsigned decimal, which needs a digit before or after its point. -/
def ofUnsigned? (negative : Bool) (text : List Char) : Option Binary64 :=
  let whole := text.takeWhile Text.isDigit
  let rest := text.dropWhile Text.isDigit
  let (fraction, tail) := match rest with
    | '.' :: rest => (rest.takeWhile Text.isDigit, rest.dropWhile Text.isDigit)
    | _ => ([], rest)
  match Text.numeral? 10 (whole ++ fraction), exponentPart? tail with
  | some digits, some exponent => some (ofDecimal negative digits (exponent - fraction.length))
  | _, _ => none

/-- The number that a text denotes; `inf`, `infinity` and `nan` are read in any case. -/
def ofText? (text : List Char) : Option Binary64 :=
  let (negative, unsigned) := Text.takeSign text
  let name := String.ofList (unsigned.map Char.toLower)
  if name = "inf" ∨ name = "infinity" then some (.infinite negative)
  else if name = "nan" then some .nan
  else ofUnsigned? negative unsigned

end Binary64

end FlowFence
