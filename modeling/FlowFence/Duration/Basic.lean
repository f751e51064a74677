import FlowFence.Power
import FlowFence.Text.Numeral

/-!
# Durations

A duration is a count of nanoseconds whose whole seconds fit a 64-bit word. Its compact text, for
reports, is a decimal in the largest unit of which it holds one.
-/

namespace FlowFence

structure Duration where
  nanoseconds : Nat
deriving DecidableEq, Inhabited

namespace Duration

def second : Nat := 1000000000

def ofSeconds (seconds : Nat) : Duration :=
  ⟨seconds * second⟩

/-- A number of parts of a unit that has `10 ^ places` parts, as a decimal without zeros behind. -/
def decimalOf (parts places : Nat) : List Char :=
  let whole := Text.decimal (parts / 10 ^ places)
  let fraction := Text.padded places (Text.decimal (parts % 10 ^ places))
  let kept := (fraction.reverse.dropWhile (· == '0')).reverse
  if kept.isEmpty then whole else whole ++ '.' :: kept

def compactText (duration : Duration) : String :=
  let n := duration.nanoseconds
  let text :=
    if second ≤ n then decimalOf n 9 ++ ['s']
    else if 1000000 ≤ n then decimalOf n 6 ++ ['m', 's']
    else if 1000 ≤ n then decimalOf n 3 ++ ['µ', 's']
    else decimalOf n 0 ++ ['n', 's']
  String.ofList text

end Duration

end FlowFence
